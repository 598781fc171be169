import GatedLog.Initialization
import GatedLog.Proofs.Emission
import GatedLog.Proofs.Tags

/-!
# What one initialization comes to

An initialization that finds the context initialized installs its pair and does
nothing else.  The first one also takes the name, and then it depends on the
tags: good ones become the threshold, and bad ones leave the threshold alone
and are reported by one emission in the context as it then stands.
-/

namespace GatedLog.Initialization

/-- The context that an initialization leaves behind. -/
def contextAfter (request : Initialization) (context : Context) : Context :=
  (request.apply context).2

/-- The emission by which an initialization reports bad tags, if it has to. -/
def emissions (request : Initialization) (host : Host) : List Emission :=
  match (request.apply host.context).1 with
  | none => []
  | some problem =>
    [(report host.reportSite problem).emission
      (request.contextAfter host.context)]

/-- How an initialization is left through a logger that takes every message. -/
def exit (request : Initialization) (host : Host) : Except Departure Unit :=
  match (request.apply host.context).1 with
  | none => .ok ()
  | some problem =>
    ((report host.reportSite problem).emission
      (request.contextAfter host.context)).exit

variable
    {request : Initialization}
    {context : Context}
    {host : Host}

/-- Every initialization installs its pair. -/
theorem contextAfter_logger (request : Initialization) (context : Context) :
    (request.contextAfter context).logger = request.logger := by
  simp only [contextAfter, apply]
  split
  · rfl
  · simp only [stash]
    split <;> rfl

theorem contextAfter_aborter (request : Initialization) (context : Context) :
    (request.contextAfter context).aborter = request.aborter := by
  simp only [contextAfter, apply]
  split
  · rfl
  · simp only [stash]
    split <;> rfl

theorem run_of_no_problem
    (quiet : (request.apply host.context).1 = none) :
    request.run host =
      Operation.done () (host.withContext (request.contextAfter host.context)) := by
  simp only [run_eq, Operation.andThen, Operation.modifyGet, quiet]
  rfl

theorem run_of_problem
    {problem : TagsError}
    (found : (request.apply host.context).1 = some problem) :
    request.run host =
      (report host.reportSite problem).close
        (host.withContext (request.contextAfter host.context)) := by
  simp only [run_eq, Operation.andThen, Operation.modifyGet, found]
  rfl

theorem report_toHeader (site : Site) (problem : TagsError) :
    (report site problem).toHeader =
      ⟨.unspecified, .fatal, Text.basename site.file, site.line⟩ :=
  rfl

theorem report_message (site : Site) (problem : TagsError) :
    (report site problem).message = problem.message := by
  simp only [Record.message, report, Record.append, Record.start,
    Record.errorSuffix, String.empty_append, String.append_empty]

/-- A report is never filtered. -/
theorem report_emissions
    (site : Site)
    (problem : TagsError)
    (context : Context) :
    (report site problem).emissions context =
      [(report site problem).emission context] :=
  if_pos (context.shouldEmit_of_isFatal rfl)

/-- Beside the context, an initialization changes at most the content of devices. -/
theorem run_emits
    (reliable : request.logger.Reliable) :
    (request.run host).Emits
      (host.withContext (request.contextAfter host.context))
      (request.exit host)
      ((request.emissions host).flatMap Emission.receptions) := by
  cases result : (request.apply host.context).1 with
  | none =>
      rw [run_of_no_problem result]
      simp only [exit, emissions, result]
      exact .done _ ()
  | some problem =>
      have installed :
          (host.withContext
            (request.contextAfter host.context)).context.logger.Reliable :=
        (request.contextAfter_logger host.context).symm ▸ reliable
      have closed := (report host.reportSite problem).close_emits installed
      rw [run_of_problem result]
      simp only [exit, emissions, result]
      rw [← report_emissions]
      exact closed

theorem apply_of_initialized (initialized : context.initialized = true) :
    request.apply context = (none, request.installPair context) :=
  if_pos initialized

theorem apply_of_uninitialized (fresh : context.initialized = false) :
    request.apply context =
      (request.problem?,
        request.stash
          { request.installPair context with initialized := true }) :=
  if_neg (by simp [installPair, fresh])

/-- A context that a first initialization has claimed, before the tags are judged. -/
def claimed (request : Initialization) (context : Context) : Context :=
  { context with
    logger := request.logger
    aborter := request.aborter
    tag := request.tagAfter context.tag
    initialized := true }

section Fresh

variable (fresh : context.initialized = false)

include fresh

theorem apply_of_no_level (level : request.level = .ok none) :
    request.apply context = (none, request.claimed context) := by
  rw [apply_of_uninitialized fresh]
  simp only [problem?, stash, level]
  rfl

theorem apply_of_level
    {severity : Severity}
    (level : request.level = .ok (some severity)) :
    request.apply context =
      (none, (request.claimed context).withMinimum severity) := by
  rw [apply_of_uninitialized fresh]
  simp only [problem?, stash, level]
  rfl

theorem apply_of_problem
    {problem : TagsError}
    (level : request.level = .error problem) :
    request.apply context = (some problem, request.claimed context) := by
  rw [apply_of_uninitialized fresh]
  simp only [problem?, stash, level]
  rfl

end Fresh

/-- Whatever comes of its tags, an initialization leaves an initialized context. -/
theorem apply_initialized (request : Initialization) (context : Context) :
    (request.apply context).2.initialized = true := by
  cases initialized : context.initialized with
  | true =>
      rw [apply_of_initialized initialized]
      exact initialized
  | false =>
      rcases level : request.level with problem | _ | severity
      · rw [apply_of_problem initialized level]
        rfl
      · rw [apply_of_no_level initialized level]
        rfl
      · rw [apply_of_level initialized level]
        rfl

end GatedLog.Initialization
