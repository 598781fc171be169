import GatedLog.Proofs.Concurrency.Settled
import GatedLog.Proofs.Host
import GatedLog.Proofs.Initialization
import GatedLog.Proofs.Session.Run

/-!
# Initialization takes effect once

An initialization of a context that is initialized already amounts to the
installation of a logger and of an aborter.  The first one marks the context
and takes the name before it looks at the tags, so even when these are refused
there is no second first one.  Refused tags leave the threshold alone and are
reported by a single record of the highest severity, to the logger and the
aborter that have just been installed.

Whatever happens later, threads and panicking loggers included, the context
stays initialized and keeps its tag.
-/

namespace GatedLog

/-! ## Settled contexts stay settled -/

namespace Context

variable
    {tag : String}
    {context : Context}

theorem Settled.withMinimum
    (settled : context.Settled tag)
    (severity : Severity) :
    (context.withMinimum severity).Settled tag :=
  ⟨settled.initialized, settled.tag_eq⟩

theorem Settled.apply
    (settled : context.Settled tag)
    (request : Initialization) :
    (request.apply context).2.Settled tag := by
  rw [Initialization.apply_of_initialized settled.initialized]
  exact ⟨settled.initialized, settled.tag_eq⟩

end Context

namespace Session

variable
    {tag : String}
    {session : Session}

theorem onHost_settled
    {Value : Type}
    {operation : Operation Host Value}
    (preserves : operation.Preserves (Context.Settled tag))
    (settled : session.host.context.Settled tag) :
    (onHost operation session).state.host.context.Settled tag :=
  preserves session.host settled

theorem perform_settled
    (step : Step)
    (settled : session.host.context.Settled tag) :
    (perform step session).state.host.context.Settled tag := by
  have threshold :
      ∀ (context : Context) (severity : Severity), context.Settled tag →
        (context.withMinimum severity).Settled tag :=
    fun _ severity settled => settled.withMinimum severity
  have applies :
      ∀ (request : Initialization) (context : Context), context.Settled tag →
        (request.apply context).2.Settled tag :=
    fun request _ settled => settled.apply request
  cases step with
  | setThreshold severity =>
      rw [perform_setThreshold]
      exact settled.withMinimum severity
  | openScope id severity =>
      rw [perform_openScope]
      exact settled.withMinimum severity
  | closeScope id =>
      rw [perform, silently]
      cases found : session.scopes.lookup id with
      | none =>
          rw [closeScope_of_none found]
          exact settled
      | some previous =>
          rw [closeScope_of_some found]
          exact settled.withMinimum previous
  | setLogger logger =>
      rw [perform_setLogger]
      exact ⟨settled.initialized, settled.tag_eq⟩
  | setAborter aborter =>
      rw [perform_setAborter]
      exact ⟨settled.initialized, settled.tag_eq⟩
  | record record argument =>
      exact onHost_settled
        (record.writeAndClose_preserves threshold argument) settled
  | append id fragments =>
      simp only [perform, append, Operation.modifyGet]
      split <;> exact settled
  | write id argument =>
      simp only [perform, write]
      split
      · exact settled
      · exact Argument.write_preserves threshold argument _ settled
  | closeRecord id =>
      simp only [perform, silently, closeRecord]
      split
      · exact settled
      · next record _ =>
          exact (record.close_context session.host).symm ▸ settled
  | emit header message =>
      exact onHost_settled
        (Operation.preserves_of_context_eq (emit_context header message)) settled
  | setUp request =>
      exact onHost_settled
        (Initialization.run_preserves applies request) settled
  | setUpFromEnvironment program logger aborter =>
      exact onHost_settled
        (fun host => Initialization.run_preserves applies _ host) settled
  | configure choices =>
      exact onHost_settled
        (Configuration.run_preserves applies _) settled
  | statement statement errno argument =>
      refine onHost_settled (Operation.Preserves.mapValue ?_ _) settled
      exact
        (Operation.preserves_of_context_eq fun _ => rfl).andThen fun _ =>
          statement.run_preserves threshold argument
  | bridgeMessage message argument =>
      exact onHost_settled
        (message.run_preserves threshold argument) settled
  | installBridge =>
      simp only [perform, onHost, Bridge.install, Operation.modifyGet]
      split <;> exact settled
  | concurrent threads loggers =>
      exact onHost_settled (concurrent_settled threads loggers) settled
  | concurrentSetUp requests =>
      exact onHost_settled (concurrentSetUp_settled requests) settled
  | _ =>
      exact settled

/-- No run of any steps takes back an initialization, or the tag that it left. -/
theorem runSteps_settled
    (settled : session.host.context.Settled tag)
    (steps : List Step) :
    (runSteps session steps).final.host.context.Settled tag := by
  refine @runSteps_invariant session
    (fun reached => reached.host.context.Settled tag) steps settled ?_
  exact fun reached step _ => perform_settled step

end Session

/-! ## The law -/

namespace Initialization

/-- What an initialization of a process does, and what later ones can still do. -/
structure Once (request : Initialization) (host : Host) : Prop where
  again :
    host.context.initialized = true →
      request.run host =
          ((Host.setLogger request.logger).andThen fun _ =>
            Host.setAborter request.aborter) host ∧
        request.run host =
          Operation.done ()
            (host.withContext
              { host.context with
                logger := request.logger
                aborter := request.aborter })
  absent :
    host.context.initialized = false →
      request.tags = .ok none →
        request.run host =
          Operation.done () (host.withContext (request.claimed host.context))
  accepted :
    ∀ (tags : String) (severity : Severity),
      host.context.initialized = false →
        request.tags = .ok (some tags) →
          Tags.parse tags = .ok severity →
            request.run host =
                Operation.done ()
                  (host.withContext
                    ((request.claimed host.context).withMinimum severity)) ∧
              (request.run host).state.context.minimum = severity
  /-- Refused tags are emitted, in the claimed context and without a threshold. -/
  refused :
    ∀ (tags : String) (problem : TagsError),
      host.context.initialized = false →
        request.tags = .ok (some tags) →
          Tags.parse tags = .error problem →
            ∃ token,
              Tags.firstBad? tags = some token ∧
                request.run host =
                  emit
                    ⟨.unspecified, .fatal, Text.basename host.reportSite.file,
                      host.reportSite.line⟩
                    ("unsupported '" ++ token ++
                      "' in ANDROID_LOG_TAGS (" ++ tags ++ ")")
                    (host.withContext (request.claimed host.context)) ∧
                (request.run host).state.context =
                  request.claimed host.context
  /-- A logger that takes every message receives the report before the aborter does. -/
  reported :
    ∀ tags token : String,
      host.context.initialized = false →
        request.tags = .ok (some tags) →
          Tags.firstBad? tags = some token →
            request.logger.Reliable →
              ∀ message : String,
                message =
                    "unsupported '" ++ token ++
                      "' in ANDROID_LOG_TAGS (" ++ tags ++ ")" →
                  (request.run host).events.map Event.reception =
                      ((Text.splitLines message).map fun text =>
                          .line request.logger
                            ⟨⟨.unspecified, .fatal,
                                Text.basename host.reportSite.file,
                                host.reportSite.line⟩,
                              request.tagAfter host.context.tag, text⟩) ++
                        (request.aborter.announced
                            (request.claimed host.context) ++
                          [.abort request.aborter message]) ∧
                    (request.run host).exit =
                      .error (request.aborter.departure message)
  /-- Whatever the tags were, nothing can undo the initialization or repeat it. -/
  settled :
    ∀ (session : Session) (steps : List Session.Step),
      session.host = (request.run host).state →
        (Session.runSteps session steps).final.host.context.initialized =
            true ∧
          (Session.runSteps session steps).final.host.context.tag =
            (request.run host).state.context.tag ∧
          ∀ later : Initialization,
            later.run (Session.runSteps session steps).final.host =
              ((Host.setLogger later.logger).andThen fun _ =>
                  Host.setAborter later.aborter)
                (Session.runSteps session steps).final.host

variable
    {request : Initialization}
    {host : Host}

/-- Without a problem, the context of the outcome is all that has changed. -/
theorem run_of_apply_eq
    {context : Context}
    (applied : request.apply host.context = (none, context)) :
    request.run host = Operation.done () (host.withContext context) := by
  have quiet : (request.apply host.context).1 = none := by
    rw [applied]
  rw [run_of_no_problem quiet, contextAfter, applied]

/-- Once a context is initialized, all that an initialization installs is its pair. -/
theorem run_of_initialized
    (initialized : host.context.initialized = true) :
    request.run host =
      ((Host.setLogger request.logger).andThen fun _ =>
        Host.setAborter request.aborter) host := by
  rw [run_of_apply_eq (apply_of_initialized initialized),
    Operation.andThen_of_ok (congrArg Outcome.exit (Host.setLogger_eq _ host)),
    Host.setAborter_eq, Host.setLogger_eq]
  rfl

theorem level_of_refused
    {tags : String}
    {problem : TagsError}
    (given : request.tags = .ok (some tags))
    (refused : Tags.parse tags = .error problem) :
    request.level = .error problem := by
  simp only [level, given, refused]
  rfl

/-- A refusal is emitted in the claimed context, whatever the threshold. -/
theorem run_of_refused
    {tags token : String}
    (fresh : host.context.initialized = false)
    (given : request.tags = .ok (some tags))
    (bad : Tags.firstBad? tags = some token) :
    request.run host =
      emit
        ⟨.unspecified, .fatal, Text.basename host.reportSite.file,
          host.reportSite.line⟩
        ("unsupported '" ++ token ++ "' in ANDROID_LOG_TAGS (" ++ tags ++ ")")
        (host.withContext (request.claimed host.context)) := by
  have level := level_of_refused given (Tags.parse_of_bad bad)
  have applied := apply_of_problem fresh level
  have found : (request.apply host.context).1 = some (.unsupported token tags) := by
    rw [applied]
  have passes :
      (host.withContext (request.claimed host.context)).shouldEmit
        (report host.reportSite (.unsupported token tags)).severity = true :=
    Context.shouldEmit_of_isFatal _ rfl
  rw [run_of_problem found, contextAfter, applied, Record.close, if_pos passes,
    report_toHeader, report_message]
  rfl

theorem once (request : Initialization) (host : Host) :
    request.Once host where
  again initialized :=
    ⟨run_of_initialized initialized,
      run_of_apply_eq (apply_of_initialized initialized)⟩
  absent fresh given := by
    have level : request.level = .ok none := by
      simp only [Initialization.level, given]
    exact run_of_apply_eq (apply_of_no_level fresh level)
  accepted tags severity fresh given parsed := by
    have level : request.level = .ok (some severity) := by
      simp only [Initialization.level, given, parsed]
      rfl
    have accepted := run_of_apply_eq (apply_of_level fresh level)
    refine ⟨accepted, ?_⟩
    rw [accepted]
    exact Context.minimum_withMinimum _ severity
  refused tags problem fresh given refused := by
    rcases Tags.parse_eq_error_iff.mp refused with ⟨token, bad, rfl⟩
    have emitted := run_of_refused fresh given bad
    refine ⟨token, bad, emitted, ?_⟩
    rw [emitted, emit_context]
    rfl
  reported tags token fresh given bad reliable message equality := by
    subst equality
    have emits :=
      @emit_emits (host.withContext (request.claimed host.context))
        ⟨.unspecified, .fatal, Text.basename host.reportSite.file,
          host.reportSite.line⟩
        ("unsupported '" ++ token ++ "' in ANDROID_LOG_TAGS (" ++ tags ++ ")")
        reliable
    rw [run_of_refused fresh given bad]
    exact ⟨emits.received, emits.exit_eq⟩
  -- The mark is set before the tags are judged, so refused tags leave it set.
  settled session steps reached := by
    have initially :
        session.host.context.Settled (request.run host).state.context.tag := by
      rw [reached]
      refine ⟨?_, rfl⟩
      rw [run_context]
      exact request.apply_initialized host.context
    have afterwards := Session.runSteps_settled initially steps
    refine ⟨afterwards.initialized, afterwards.tag_eq, ?_⟩
    intro later
    exact run_of_initialized afterwards.initialized

/--
Initialization takes effect once, whether its tags are given or taken from the
environment of that moment.
-/
theorem takesEffectOnce (host : Host) :
    (∀ request : Initialization, request.Once host) ∧
      ∀ (program : Option String) (logger : Logger) (aborter : Aborter),
        runFromEnvironment program logger aborter host =
          run ⟨program, .ok host.environmentTags, logger, aborter⟩ host :=
  ⟨fun request => once request host, fun _ _ _ => rfl⟩

/-- A doubled space is an empty bad segment, and the new pair hears of it. -/
theorem takesEffectOnce_of_doubled_space :
    (run
        ⟨some "/system/bin/app", .ok (some "*:w  *:e"),
          .channel "new" .main true, .unwind "new" none⟩
        (Host.around
          (Context.new (.channel "old" .main true) .terminate "old"))).events.map
        Event.reception =
      [.line (.channel "new" .main true)
          ⟨⟨.unspecified, .fatal, "setup.rs", 20⟩, "app",
            "unsupported '' in ANDROID_LOG_TAGS (*:w  *:e)"⟩,
        .abort (.unwind "new" none)
          "unsupported '' in ANDROID_LOG_TAGS (*:w  *:e)"] := by
  have law :=
    (takesEffectOnce
      (Host.around
        (Context.new (.channel "old" .main true) .terminate "old"))).1
      ⟨some "/system/bin/app", .ok (some "*:w  *:e"),
        .channel "new" .main true, .unwind "new" none⟩
  have reported :=
    law.reported "*:w  *:e" "" rfl rfl (by decide) (fun _ => rfl)
      "unsupported '' in ANDROID_LOG_TAGS (*:w  *:e)" (by decide)
  have lines :
      Text.splitLines "unsupported '' in ANDROID_LOG_TAGS (*:w  *:e)" =
        ["unsupported '' in ANDROID_LOG_TAGS (*:w  *:e)"] := by
    decide
  have name : Text.basename "/system/bin/app" = "app" := by
    decide
  have file : Text.basename "src/setup.rs" = "setup.rs" := by
    decide
  rw [reported.1, lines]
  simp only [tagAfter, name, Host.around, file]
  rfl

end Initialization

end GatedLog
