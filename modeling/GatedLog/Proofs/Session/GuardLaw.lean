import GatedLog.Proofs.Session.Retracing
import GatedLog.Proofs.Session.ThresholdLaw
import GatedLog.Proofs.Trail
import GatedLog.Proofs.Writing

/-!
# The guard of a statement only saves work

A statement asks the threshold before it formats its argument, and its record
is filtered once more when it is closed.  Without the first question a record
would be begun, the argument formatted into it, and the record closed.  That
comes to the same if the severity is enabled when the statement is reached,
whatever the argument does to the threshold and to the error number afterwards.
It comes to the same as well if the argument only writes text.  In all other
cases nothing of the argument is evaluated, and nothing changes.
-/

namespace GatedLog

/-! ## Outcomes without what was returned -/

namespace Outcome

variable
    {State Value Image : Type}
    {outcome : Outcome State Value}

/-- How an operation went: how it was left, and everything but the value it returned. -/
def course (outcome : Outcome State Value) : Outcome State Unit :=
  outcome.mapValue fun _ => ()

@[simp]
theorem course_mapValue
    (function : Value → Image)
    (outcome : Outcome State Value) :
    (outcome.mapValue function).course = outcome.course := by
  cases exit : outcome.exit <;>
    simp [course, mapValue, Except.map, exit]

/-- Two operations that went alike have left the same behind. -/
theorem same_of_course_eq
    {other : Outcome State Image}
    (same : outcome.course = other.course) :
    outcome.events = other.events ∧ outcome.state = other.state :=
  ⟨congrArg Outcome.events same, congrArg Outcome.state same⟩

/-- Work that does nothing cannot be told from no work. -/
theorem ensuring_of_done
    {work : Operation State Unit}
    (idle : work outcome.state = Operation.done () outcome.state) :
    outcome.ensuring work = outcome := by
  unfold ensuring
  split
  · rfl
  · rw [idle]
    simp [Operation.done, exitAfterWork]

end Outcome

/-! ## Records in the process-wide context -/

theorem Record.closeShared_of_filtered
    {record : Record}
    {host : Host}
    (filtered : host.sharedContext.shouldEmit record.severity = false) :
    record.closeShared host = Operation.done () host := by
  cases apart : host.shared with
  | none =>
      rw [Host.sharedContext, apart] at filtered
      rw [closeShared, Host.onShared_of_none apart]
      exact close_of_filtered filtered
  | some shared =>
      rw [Host.sharedContext, apart] at filtered
      have closed :
          record.close { host with context := shared, shared := none } =
            Operation.done () { host with context := shared, shared := none } :=
        close_of_filtered filtered
      simp only [closeShared, Host.onShared, apart, closed]
      simp only [Operation.done, Outcome.mapState, ← apart]

/-- Of a record that is filtered in the end only its argument remains. -/
theorem Record.writeAndCloseShared_of_filtered
    {record : Record}
    {argument : List Piece}
    {host : Host}
    (filtered :
      (Argument.write argument host).outcome.state.sharedContext.shouldEmit
        record.severity = false) :
    record.writeAndCloseShared argument host =
      (Argument.write argument host).outcome :=
  Outcome.ensuring_of_done (closeShared_of_filtered filtered)

/-- A context that is process-wide when an operation starts is so when it is left. -/
theorem Host.trail_alone :
    Host.Trail (fun _ => True) fun before _ after =>
      before.shared = none → after.shared = none where
  refl _ alone := alone
  trans first second alone := second (first alone)
  takes _ _ alone := alone
  aborts _ _ _ alone := alone
  marks _ alone := alone
  configures _ _ _ alone := alone
  errs _ _ alone := alone
  exports _ _ alone := alone
  shares apart _ alone := absurd (apart.symm.trans alone) (Option.some_ne_none _)

/-- Only one context is there, so a record cannot belong to another one. -/
theorem Record.writeAndCloseShared_of_alone
    {host : Host}
    (alone : host.shared = none)
    (record : Record)
    (argument : List Piece) :
    record.writeAndCloseShared argument host =
      record.writeAndClose argument host := by
  have still_alone : (Argument.write argument host).outcome.state.shared = none :=
    Host.trail_alone.write argument host alone
  simp only [writeAndCloseShared, writeAndClose, writeThen, Outcome.ensuring,
    closeShared, Host.onShared_of_none still_alone]

/-! ## Statements with and without the guard -/

namespace Statement

variable
    {site : Statement}
    {argument : List Piece}
    {host : Host}

/-- The severity passes the threshold at the moment at which a statement is reached. -/
def Enabled (site : Statement) (host : Host) : Prop :=
  host.sharedContext.shouldEmit site.severity = true

/-- The guard cannot be noticed: it lets the argument through, or only text is at stake. -/
def Unnoticed
    (site : Statement)
    (argument : List Piece)
    (host : Host) :
    Prop :=
  site.Enabled host ∨ argument.all Piece.isText = true

theorem run_of_enabled
    (enabled : site.Enabled host) :
    site.run argument host =
      (site.runUnguarded argument host).mapValue fun _ => true :=
  if_pos enabled

theorem run_of_disabled
    (disabled : ¬ site.Enabled host) :
    site.run argument host = Operation.done false host :=
  if_neg disabled

/-- Text leaves the threshold alone, so the second question is answered like the first. -/
theorem runUnguarded_of_texts
    (texts : argument.all Piece.isText = true)
    (disabled : ¬ site.Enabled host) :
    site.runUnguarded argument host = Operation.done .complete host := by
  have written := Argument.write_of_texts texts host
  have filtered :
      (Argument.write argument host).outcome.state.sharedContext.shouldEmit
        (site.record host.errno).severity = false := by
    rw [written]
    exact eq_false_of_ne_true disabled
  rw [runUnguarded, Record.writeAndCloseShared_of_filtered filtered, written]

theorem course_run
    (unnoticed : site.Unnoticed argument host) :
    (site.run argument host).course =
      (site.runUnguarded argument host).course := by
  by_cases enabled : site.Enabled host
  · rw [run_of_enabled enabled, Outcome.course_mapValue]
  · have texts : argument.all Piece.isText = true :=
      unnoticed.resolve_left enabled
    rw [run_of_disabled enabled, runUnguarded_of_texts texts enabled]
    rfl

/-- A threshold above the severity disables it, unless the severity is a fatal tier. -/
theorem disabled_of_raised
    (harmless : site.severity.isFatal = false)
    (raised : site.severity < host.sharedContext.minimum) :
    ¬ site.Enabled host := by
  have below : ¬ host.sharedContext.minimum ≤ site.severity :=
    Nat.not_le.mpr raised
  simp [Enabled, Context.shouldEmit, harmless, below]

theorem course_run_of_disabled_later
    (enabled : site.Enabled host)
    (disabled : ¬ site.Enabled (Argument.write argument host).outcome.state) :
    (site.run argument host).course =
      (Argument.write argument host).outcome.course := by
  have filtered :
      (Argument.write argument host).outcome.state.sharedContext.shouldEmit
        (site.record host.errno).severity = false :=
    eq_false_of_ne_true disabled
  rw [run_of_enabled enabled, Outcome.course_mapValue, runUnguarded,
    Record.writeAndCloseShared_of_filtered filtered]

/-- What follows the text of a statement's record, given the number of the last error. -/
def suffix (site : Statement) (errno : Int32) : String :=
  if site.describesError then ": " ++ SystemError.describe errno else ""

theorem message_written (errno : Int32) :
    ((site.record errno).written argument).message =
      String.join (Argument.fragments argument) ++ site.suffix errno := by
  cases describes : site.describesError <;>
    simp [record, Record.start, Record.written, Record.message,
      Record.errorSuffix, suffix, describes]

/-- The error number that counts is the one from before the formatting. -/
theorem run_received
    (reliable : host.Reliable)
    (unwinds : host.Unwinds)
    (enabled : site.Enabled host) :
    (site.run argument host).events.map Event.reception =
      (Argument.emissions host.context argument).flatMap Emission.receptions ++
        if (host.withContext
              (Argument.contextAfter host.context argument)).sharedContext.shouldEmit
            site.severity then
          Emission.receptions
            ⟨(host.withContext
                (Argument.contextAfter host.context argument)).sharedContext,
              ⟨site.channel, site.severity, Text.basename site.file, site.line⟩,
              String.join (Argument.fragments argument) ++
                site.suffix host.errno⟩
        else
          [] := by
  have received :=
    (site.record host.errno).writeAndCloseShared_received argument reliable unwinds
  rw [run_of_enabled enabled, Outcome.events_mapValue, runUnguarded, received,
    Record.sharedEmissionsWith, List.flatMap_append, Record.emissions,
    Record.severity_written]
  have same_severity : (site.record host.errno).severity = site.severity := rfl
  rw [same_severity]
  split
  · rw [List.flatMap_singleton, Record.emission, message_written]
    rfl
  · rfl

end Statement

namespace Session

variable {session : Session}

/-- What a statement comes to is what closing its record at once comes to. -/
theorem runSteps_statement
    {site : Statement}
    {argument : List Piece}
    (alone : session.host.shared = none)
    (unnoticed : site.Unnoticed argument session.host) :
    (runSteps session [.statement site session.host.errno argument]).events =
        (runSteps session
          [.record (site.record session.host.errno) argument]).events ∧
      (runSteps session [.statement site session.host.errno argument]).final =
        (runSteps session
          [.record (site.record session.host.errno) argument]).final := by
  have course := Statement.course_run unnoticed
  rw [Statement.runUnguarded, Record.writeAndCloseShared_of_alone alone] at course
  rcases Outcome.same_of_course_eq course with ⟨events_eq, state_eq⟩
  have stated :
      perform (.statement site session.host.errno argument) session =
        ((site.run argument session.host).mapValue Result.formatted).mapState
          session.withHost := rfl
  rcases runSteps_singleton (.statement site session.host.errno argument)
      session with
    ⟨stated_events, stated_final⟩
  rcases runSteps_singleton
      (.record (site.record session.host.errno) argument) session with
    ⟨whole_events, whole_final⟩
  constructor
  · rw [stated_events, stated, whole_events]
    exact events_eq
  · rw [stated_final, stated, whole_final]
    exact congrArg session.withHost state_eq

end Session

/-! ## The law of the guard -/

namespace Statement

/-- What a statement comes to where it is reached, whatever its argument does. -/
structure GuardLaw
    (site : Statement)
    (argument : List Piece)
    (host : Host) :
    Prop where
  /-- If the severity is disabled, nothing takes place and nothing changes. -/
  skipped :
    ¬ site.Enabled host →
      site.run argument host = Operation.done false host
  /-- Otherwise the guard might as well not be there: the record has no error number. -/
  plain :
    site.describesError = false →
      site.Unnoticed argument host →
        (site.run argument host).course =
          ((Record.start site.file site.line site.channel site.severity
            none).writeAndCloseShared argument host).course
  /-- Or it has the one from before its argument was formatted. -/
  described :
    site.describesError = true →
      site.Unnoticed argument host →
        (site.run argument host).course =
          ((Record.start site.file site.line site.channel site.severity
            (some host.errno)).writeAndCloseShared argument host).course
  /-- If it is disabled once the argument is formatted, only the argument is noticed. -/
  dropped :
    site.Enabled host →
      ¬ site.Enabled (Argument.write argument host).outcome.state →
        (site.run argument host).course =
          (Argument.write argument host).outcome.course
  /-- That is so if the argument has raised the threshold above the severity. -/
  raised :
    site.Enabled host →
      site.severity.isFatal = false →
        site.severity <
            (Argument.write argument host).outcome.state.sharedContext.minimum →
          (site.run argument host).course =
            (Argument.write argument host).outcome.course
  /--
  What is received are the emissions of the argument, and then that of the
  record if it still passes, with the error described that was the last one when
  the statement was reached.
  -/
  received :
    host.Reliable →
      host.Unwinds →
        site.Enabled host →
          (site.run argument host).events.map Event.reception =
            (Argument.emissions host.context argument).flatMap
                Emission.receptions ++
              if (host.withContext
                    (Argument.contextAfter host.context
                      argument)).sharedContext.shouldEmit
                  site.severity then
                Emission.receptions
                  ⟨(host.withContext
                      (Argument.contextAfter host.context
                        argument)).sharedContext,
                    ⟨site.channel, site.severity, Text.basename site.file,
                      site.line⟩,
                    String.join (Argument.fragments argument) ++
                      site.suffix host.errno⟩
              else
                []
  /-- The record may as well be begun, written and closed by steps of their own. -/
  stepwise :
    ∀ (session : Session) (id : String),
      session.host = host →
        host.shared = none →
          session.records.lookup id = none →
            site.Unnoticed argument host →
              (Session.runSteps session
                  [.openRecord id (site.record host.errno), .write id argument,
                    .closeRecord id]).Retraces
                (Session.runSteps session
                  [.statement site host.errno argument])

/-- Every statement obeys the law, on every process and with every argument. -/
theorem guardLaw
    (site : Statement)
    (argument : List Piece)
    (host : Host) :
    site.GuardLaw argument host where
  skipped := run_of_disabled
  plain := by
    intro describes unnoticed
    rw [course_run unnoticed, runUnguarded, record, describes]
    rfl
  described := by
    intro describes unnoticed
    rw [course_run unnoticed, runUnguarded, record, describes]
    rfl
  dropped := course_run_of_disabled_later
  raised := by
    intro enabled harmless raised
    exact
      course_run_of_disabled_later enabled (disabled_of_raised harmless raised)
  received := run_received
  stepwise := by
    rintro session id rfl alone fresh unnoticed
    have steps :=
      Session.retraces_record fresh (site.record session.host.errno) argument
    rcases Session.runSteps_statement alone unnoticed with
      ⟨events_eq, final_eq⟩
    exact
      ⟨steps.events_eq.trans events_eq.symm,
        steps.host_eq.trans (congrArg Session.host final_eq).symm,
        fun outlived => (steps.final_eq outlived).trans final_eq.symm⟩

/-- The error of before is described, although the argument comes by another one. -/
theorem guardLaw_of_later_error :
    (run ⟨"src/db.rs", 9, .system, .warning, true⟩
          [.errno 13, .text "cannot open"]
          { Host.around
              (Context.new (.channel "main" .main true) (.unwind "main" none)
                "app") with
            errno := 2 }).events.map Event.reception =
      [.line (.channel "main" .main true)
        ⟨⟨.system, .warning, "db.rs", 9⟩, "app",
          "cannot open: No such file or directory"⟩] := by
  have law :=
    guardLaw ⟨"src/db.rs", 9, .system, .warning, true⟩
      [.errno 13, .text "cannot open"]
      { Host.around
          (Context.new (.channel "main" .main true) (.unwind "main" none)
            "app") with
        errno := 2 }
  have reliable : Logger.Reliable (.channel "main" .main true) := fun _ => rfl
  have unwinds : Aborter.Unwinds (.unwind "main" none) := nofun
  rw [law.received ⟨reliable, reliable⟩ ⟨unwinds, unwinds⟩ rfl]
  rfl

end Statement

end GatedLog
