import GatedLog.Proofs.Fault
import GatedLog.Proofs.Host
import GatedLog.Proofs.Session.Effects
import GatedLog.Proofs.Session.Veil

/-!
# The law of panicking loggers

A logger may panic in the middle of a message.  Its caller sees the panic, and
that is all that ever comes of it: the context stands as it stood, the lock can
be taken again, and the run goes on, to its very end, as it would have gone on
from the state that the message was dispatched in, had there been no panic.
-/

namespace GatedLog.Session

/-! ## Steps that dispatch a message -/

/--
A step comes to the emission that closes its record, in a given session and
after given events, and it is not being left already.
-/
inductive Dispatches (session : Session) :
    Step → Session → Emission → List Event → Prop where
  | emit (header : Header) (message : String) :
      Dispatches session (.emit header message) session
        ⟨session.host.context, header, message⟩ []
  | closeRecord
      {id : String}
      {record : Record}
      (found : session.records.lookup id = some record)
      (passes : session.host.shouldEmit record.severity = true) :
      Dispatches session (.closeRecord id)
        { session with
          records := session.records.eraseP fun entry => entry.1 == id }
        (record.emission session.host.context) []
  | record
      {record : Record}
      {argument : List Piece}
      {writing : Writing}
      {written : Written}
      (formatted : Argument.write argument session.host = writing)
      (returned : writing.outcome.exit = .ok written)
      (passes : writing.outcome.state.shouldEmit record.severity = true) :
      Dispatches session (.record record argument)
        (session.withHost writing.outcome.state)
        ((record.append writing.text).emission writing.outcome.state.context)
        writing.outcome.events
  | statement
      {statement : Statement}
      {errno : Int32}
      {argument : List Piece}
      {writing : Writing}
      {written : Written}
      (enabled :
        session.host.sharedContext.shouldEmit statement.severity = true)
      (formatted :
        Argument.write argument { session.host with errno := errno } = writing)
      (returned : writing.outcome.exit = .ok written)
      (passes :
        writing.outcome.state.sharedContext.shouldEmit
          statement.severity = true) :
      Dispatches session (.statement statement errno argument)
        (session.withHost writing.outcome.state)
        (((statement.record errno).append writing.text).emission
          writing.outcome.state.sharedContext)
        writing.outcome.events
  | bridgeMessage
      {message : Bridge.Message}
      {argument : List Piece}
      {writing : Writing}
      {written : Written}
      (enabled : Bridge.enabled message.level session.host = true)
      (formatted : Argument.write argument session.host = writing)
      (returned : writing.outcome.exit = .ok written)
      (passes :
        writing.outcome.state.sharedContext.shouldEmit
          message.level.severity = true) :
      Dispatches session (.bridgeMessage message argument)
        (session.withHost writing.outcome.state)
        ((message.record.append writing.text).emission
          writing.outcome.state.sharedContext)
        writing.outcome.events
  | report
      {step : Step}
      {request : Initialization}
      {problem : TagsError}
      (requested : step.request? session.host = some request)
      (refused : (request.apply session.host.context).1 = some problem) :
      Dispatches session step
        (session.withHost
          (session.host.withContext
            (request.contextAfter session.host.context)))
        ((Initialization.report session.host.reportSite problem).emission
          (request.contextAfter session.host.context))
        []

variable
    {session reached : Session}
    {step : Step}
    {emission : Emission}
    {sent : List Event}
    {before after : List Line}
    {line : Line}
    {panic : String}

/-- Such a step is left by the panic, in the session that it had come to. -/
theorem perform_of_fault
    (dispatches : session.Dispatches step reached emission sent)
    (split : emission.handed = before ++ line :: after)
    (takes : emission.context.logger.Takes before)
    (fault : emission.context.logger.fault? line.message = some panic) :
    perform step session =
      ⟨.error (.panicked panic), reached.marked,
        sent ++ before.map emission.context.logger.taking⟩ := by
  cases dispatches with
  | emit header message =>
      have cut :=
        (emit_contained header message session.host).cut
          before line after panic split takes fault
      simp only [perform, silently, onHost, cut]
      rfl
  | @closeRecord id record found passes =>
      have cut :=
        (Record.close_contained passes).cut before line after panic
          split takes fault
      rw [perform, silently, closeRecord_of_some found, cut]
      rfl
  | @record record argument writing written formatted returned passes =>
      subst formatted
      have cut :=
        (@Record.close_contained (record.append _) _ passes).cut
          before line after panic split takes fault
      simp only [perform, onHost, Record.writeAndClose,
        Record.writeThen_of_returned returned, cut]
      rfl
  | @statement statement errno argument writing written enabled formatted
      returned passes =>
      subst formatted
      have cut :=
        (@Record.closeShared_contained
            ((statement.record errno).append _) _ passes).cut
          before line after panic split takes fault
      rw [perform_statement_of_enabled enabled, Record.writeAndCloseShared,
        Record.writeThen_of_returned returned, cut]
      rfl
  | @bridgeMessage message argument writing written enabled formatted returned
      passes =>
      subst formatted
      have cut :=
        (@Record.closeShared_contained (message.record.append _) _ passes).cut
          before line after panic split takes fault
      rw [perform_bridgeMessage_of_enabled enabled, Record.writeAndCloseShared,
        Record.writeThen_of_returned returned, cut]
      rfl
  | @report _ request problem requested refused =>
      have fatal :
          (Initialization.report session.host.reportSite
            problem).severity.isFatal = true := rfl
      have cut :=
        (@Record.close_contained
            (Initialization.report session.host.reportSite problem)
            (session.host.withContext
              (request.contextAfter session.host.context))
            (Context.shouldEmit_of_isFatal _ fatal)).cut
          before line after panic split takes fault
      rw [perform_of_request requested]
      simp only [silently, onHost, Initialization.run_of_problem refused, cut]
      rfl

/-- After a step that was left by a panic the session goes on as if without it. -/
theorem run_of_panicked
    {events : List Event}
    (panicked :
      perform step session =
        ⟨.error (.panicked panic), reached.marked, events⟩)
    (later : List Step) :
    run session (step :: later) =
      (run reached later).marked.afterAnswer
        ⟨.error (.panicked panic), events,
          Standing.of reached.host.context⟩ := by
  have alive :
      ∀ cause, (perform step session).exit ≠ .error (.terminated cause) := by
    simp [panicked]
  rw [run_of_alive alive, panicked, run_marked]
  rfl

/-- The records that are left open are closed in order, the oldest first. -/
theorem run_nil_of_records
    {id : String}
    {record : Record}
    {others : List (String × Record)}
    (left : session.records = (id, record) :: others)
    (events : List Event)
    (panicked :
      closeRecord id session =
        ⟨.error (.panicked panic),
          { session with records := others }.marked, events⟩) :
    run session [] =
      (run { session with records := others } []).marked.afterAnswer
        ⟨.error (.panicked panic), events,
          Standing.of session.host.context⟩ := by
  have closings :
      leftovers session =
        endOf id (closeRecord id) ::
          leftovers { session with records := others } := by
    simp [leftovers, left]
  have first :
      endOf id (closeRecord id) session =
        ⟨.error (.panicked panic),
          { session with records := others }.marked, events⟩ := by
    simp only [endOf, panicked]
    rfl
  have rest :=
    runAll_leftovers_marked
      { session with records := others } { session with records := others }
  simp only [run, runSteps, List.map_nil, runAll, Report.terminated,
    Option.isSome_none, Bool.false_eq_true, if_false, closings, first, rest]
  rfl

/-- A line at which a thread panics is the end of its call, and frees the lock. -/
theorem run_of_faulty_turn
    {machine : Concurrency.Machine}
    {index : Nat}
    {thread : Concurrency.Thread}
    {delivery : Concurrency.Delivery}
    {text : String}
    {remaining : List String}
    (alive : machine.ended = false)
    (member : machine.threads[index]? = some thread)
    (dispatching : thread.activity = .dispatching delivery (text :: remaining))
    (fault : machine.host.context.logger.fault? text = some panic)
    (later : List Nat) :
    machine.run (index :: later) =
      (((machine.setHolder none).setThread index
          { thread with activity := .idle }).run later).marked := by
  have turn :
      machine.step index =
        ((machine.setHolder none).setThread index
          { thread with activity := .idle }).marked := by
    simp only [Concurrency.Machine.step, alive, member,
      Concurrency.Machine.advance, dispatching, Concurrency.Machine.handLine,
      Emission.hand_of_fault fault]
    simp [Concurrency.Machine.logged, Concurrency.Machine.setHolder,
      Concurrency.Machine.setThread, Concurrency.Machine.marked, Host.marked,
      alive]
  rw [Concurrency.Machine.run, List.foldl_cons, turn]
  exact Concurrency.Machine.run_marked _ later

/-! ## The law -/

/-- What the panics of loggers come to in a session, and what they do not. -/
structure FaultLaw (session : Session) : Prop where
  /-- A logger takes all lines of an emission, or there is a first that it does not. -/
  decided :
    ∀ emission : Emission,
      emission.context.logger.Takes emission.handed ∨
        ∃ before line after panic,
          emission.handed = before ++ line :: after ∧
            emission.context.logger.Takes before ∧
              emission.context.logger.fault? line.message = some panic
  /-- A message that is emitted directly. -/
  emitted :
    ∀ (header : Header) (message : String),
      Emission.Contained ⟨session.host.context, header, message⟩
        (GatedLog.emit header message) session.host
  /-- A record that passes the threshold of the context at hand. -/
  closed :
    ∀ record : Record,
      session.host.shouldEmit record.severity = true →
        (record.emission session.host.context).Contained
          record.close session.host
  /-- A record that passes the threshold of the process-wide context. -/
  closedShared :
    ∀ record : Record,
      session.host.sharedContext.shouldEmit record.severity = true →
        (record.emission session.host.sharedContext).Contained
          record.closeShared session.host
  /--
  No run notices the mark, wherever the panic was that left it: in a step, or in
  a record that was closed while the argument of another one was formatted.
  -/
  unnoticed :
    ∀ steps : List Step,
      run session.marked steps = (run session steps).marked
  /--
  Wherever in a run a step dispatches a message that is cut short, the step is
  answered with the panic and with what was sent before it.  The rest of the run
  is the run from the session that the message was dispatched in.
  -/
  resumed :
    ∀ (earlier : List Step) (step : Step) (later : List Step)
        (reached : Session) (emission : Emission) (sent : List Event)
        (before : List Line) (line : Line) (after : List Line) (panic : String),
      (runSteps session earlier).termination = none →
        (runSteps session earlier).final.Dispatches step reached emission sent →
          emission.handed = before ++ line :: after →
            emission.context.logger.Takes before →
              emission.context.logger.fault? line.message = some panic →
                run session (earlier ++ step :: later) =
                  { (run reached later).marked with
                    answers :=
                      (runSteps session earlier).answers ++
                        ⟨.error (.panicked panic),
                          sent ++ before.map emission.context.logger.taking,
                          Standing.of reached.host.context⟩ ::
                          (run reached later).answers }
  /-- The same when a record that was left open is closed in the end. -/
  resumedEnd :
    ∀ (id : String) (record : Record) (others : List (String × Record))
        (before : List Line) (line : Line) (after : List Line) (panic : String),
      session.records = (id, record) :: others →
        session.host.shouldEmit record.severity = true →
          (record.emission session.host.context).handed =
              before ++ line :: after →
            session.host.context.logger.Takes before →
              session.host.context.logger.fault? line.message = some panic →
                run session [] =
                  (run { session with records := others } []).marked.afterAnswer
                    ⟨.error (.panicked panic),
                      before.map session.host.context.logger.taking,
                      Standing.of session.host.context⟩
  /--
  Where threads share the process, the panic ends the call of its thread and
  leaves the lock to whoever comes next, whichever thread that is.
  -/
  released :
    ∀ (calls : List (List Concurrency.Call)) (earlier later : List Nat)
        (index : Nat) (thread : Concurrency.Thread)
        (delivery : Concurrency.Delivery) (text : String)
        (remaining : List String) (panic : String),
      let machine :=
        (Concurrency.Machine.start session.host calls).run earlier
      machine.ended = false →
        machine.threads[index]? = some thread →
          thread.activity = .dispatching delivery (text :: remaining) →
            machine.host.context.logger.fault? text = some panic →
              machine.run (index :: later) =
                (((machine.setHolder none).setThread index
                    { thread with activity := .idle }).run later).marked

/-- Every session obeys the law, whatever its loggers and its aborters. -/
theorem faultLaw (session : Session) : FaultLaw session where
  decided emission := emission.context.logger.takes_or_cut emission.handed
  emitted header message := emit_contained header message session.host
  closed _ passes := Record.close_contained passes
  closedShared _ passes := Record.closeShared_contained passes
  unnoticed := run_marked session
  resumed earlier step later reached emission sent before line after panic
      outlived dispatches split takes fault := by
    have panicked := perform_of_fault dispatches split takes fault
    rw [run_append outlived, run_of_panicked panicked later]
    rfl
  resumedEnd id record others before line after panic left passes split takes
      fault := by
    have found : session.records.lookup id = some record := by
      simp [left]
    have cut :=
      (Record.close_contained passes).cut before line after panic
        split takes fault
    apply run_nil_of_records left
    rw [closeRecord_of_some found, cut]
    simp [Outcome.mapState, left, marked, withHost, Record.emission]
  released calls earlier later index thread delivery text remaining panic :=
    fun alive member dispatching fault =>
      run_of_faulty_turn alive member dispatching fault later

/-- A context whose logger panics on one message, and whose aborter announces itself. -/
def fragile : Context :=
  Context.new
    (.closure "main" fun text =>
      if text = "bad" then some "logger failed" else none)
    (.unwind "main"
      (some
        ⟨(Record.start "src/abort.rs" 3 .system .error none).append "going down",
          rfl⟩))
    "app"

/-- What may come after the panic: a message of the highest severity, and a question. -/
def aftermath : List Step :=
  [.emit ⟨.main, .fatal, "a.rs", 2⟩ "two", .shouldEmit .debug]

/--
The second of three lines is not taken: the first one was received, nobody
announces anything or aborts, and the rest of the run does not notice.
-/
theorem faultLaw_of_second_line :
    run (start (Host.around fragile))
        ([] ++ .emit ⟨.main, .fatal, "a.rs", 1⟩ "one\nbad\nthree" :: aftermath) =
      { (run (start (Host.around fragile)) aftermath).marked with
        answers :=
          ⟨.error (.panicked "logger failed"),
              [.line fragile.logger
                ⟨⟨.main, .fatal, "a.rs", 1⟩, "app", "one"⟩ []],
              ⟨.info, "app", false⟩⟩ ::
            (run (start (Host.around fragile)) aftermath).answers } := by
  have lines :
      Emission.handed
          ⟨fragile, ⟨.main, .fatal, "a.rs", 1⟩, "one\nbad\nthree"⟩ =
        [⟨⟨.main, .fatal, "a.rs", 1⟩, "app", "one"⟩] ++
          ⟨⟨.main, .fatal, "a.rs", 1⟩, "app", "bad"⟩ ::
            [⟨⟨.main, .fatal, "a.rs", 1⟩, "app", "three"⟩,
              ⟨⟨.system, .error, "abort.rs", 3⟩, "app", "going down"⟩] := by
    rfl
  have takes :
      fragile.logger.Takes [⟨⟨.main, .fatal, "a.rs", 1⟩, "app", "one"⟩] :=
    List.forall_mem_singleton.mpr
      (by simp [fragile, Context.new, Logger.fault?])
  have fault : fragile.logger.fault? "bad" = some "logger failed" := by
    simp [fragile, Context.new, Logger.fault?]
  exact
    (faultLaw (start (Host.around fragile))).resumed
      [] (.emit ⟨.main, .fatal, "a.rs", 1⟩ "one\nbad\nthree") aftermath
      (start (Host.around fragile)) _ [] _ _ _ "logger failed" rfl
      (.emit ⟨.main, .fatal, "a.rs", 1⟩ "one\nbad\nthree")
      lines takes fault

end GatedLog.Session
