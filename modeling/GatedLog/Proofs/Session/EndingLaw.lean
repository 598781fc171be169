import GatedLog.Proofs.Ending
import GatedLog.Proofs.FormattingLaw
import GatedLog.Proofs.Session.Closing
import GatedLog.Proofs.Session.Effects
import GatedLog.Proofs.Session.ScopeLaw

/-!
# The emission that ends the process

Where all aborters end the process, the first emission of the highest severity
ends a run, wherever it is found: in a step, in the argument of a record, in an
initialization with bad tags, or among the closings at the very end.  Loggers
have then received the lines of all emissions up to and including this one.

What a run would emit if nothing ended it is laid down in a plan.  The plan asks
steps for their emissions and sessions for what steps make of them, but not
whether the process outlives a step, so that it can be compared with the run.
-/

namespace GatedLog.Session

/-- The emissions that steps ask for, in order, whether or not one ends the process. -/
def plan (session : Session) : List Step → List Emission
  | [] => []
  | step :: rest =>
      step.emissions session ++ plan (perform step session).state rest

/-- All emissions that a whole session asks for, those of its closings included. -/
def wholePlan (session : Session) (steps : List Step) : List Emission :=
  plan session (stepsToEnd session steps)

/-- Steps of one thread with reliable loggers and aborters that end the process. -/
structure Terminal (steps : List Step) : Prop extends ReliableSteps steps where
  aborters : ∀ step ∈ steps, ∀ aborter ∈ step.aborters, aborter = .terminate

theorem Terminal.of_subset
    {steps others : List Step}
    (terminal : Terminal steps)
    (subset : others ⊆ steps) :
    Terminal others where
  toReliableSteps := terminal.toReliableSteps.of_subset subset
  aborters _ member := terminal.aborters _ (subset member)

variable
    {session : Session}
    {step : Step}
    {steps earlier later : List Step}

/-- Closing what is open installs nothing. -/
theorem Terminal.toEnd
    (terminal : Terminal steps)
    (session : Session) :
    Terminal (stepsToEnd session steps) := by
  have cases_of :
      ∀ step ∈ stepsToEnd session steps,
        step ∈ steps ∨
          step.isConcurrent = false ∧ step.loggers = [] ∧ step.aborters = [] := by
    intro step member
    rcases List.mem_append.mp member with given | closing
    · exact Or.inl given
    · rcases eq_of_mem_closings closing with ⟨id, rfl⟩ | ⟨id, rfl⟩
      · exact Or.inr ⟨rfl, rfl, rfl⟩
      · exact Or.inr ⟨rfl, rfl, rfl⟩
  constructor
  · constructor
    · intro step member
      rcases cases_of step member with given | closing
      · exact terminal.alone step given
      · exact closing.1
    · intro step member logger installed
      rcases cases_of step member with given | closing
      · exact terminal.loggers step given logger installed
      · rw [closing.2.1] at installed
        cases installed
  · intro step member aborter installed
    rcases cases_of step member with given | closing
    · exact terminal.aborters step given aborter installed
    · rw [closing.2.2] at installed
      cases installed

/-! ## One step -/

/-- What a step does on the process is what an operation on it does. -/
theorem goesThrough_of_onHost
    {Value : Type}
    {operation : Operation Host Value}
    {function : Value → Result}
    {emissions : List Emission}
    (performed :
      perform step session =
        ((operation session.host).mapValue function).mapState session.withHost)
    (goes : (operation session.host).GoesThrough emissions) :
    (perform step session).GoesThrough emissions := by
  rw [performed]
  exact (goes.mapValue function).mapState session.withHost

theorem goesThrough_write
    (id : String)
    (argument : List Piece)
    (reliable : session.host.Reliable)
    (terminates : session.host.Terminates) :
    (perform (.write id argument) session).GoesThrough
      (Step.emissions session (.write id argument)) := by
  cases found : session.records.lookup id with
  | none =>
      rw [perform, write_of_none found]
      simp only [Step.emissions, Step.argument, found]
      exact Outcome.goesThrough_of_silent rfl rfl
  | some record =>
      have written :=
        Argument.write_goesThrough argument reliable.here terminates.here
      rw [perform, write_of_some found]
      simp only [Step.emissions, Step.argument, found]
      exact (written.mapValue _).mapState _

theorem goesThrough_closeRecord
    (id : String)
    (reliable : session.host.Reliable)
    (terminates : session.host.Terminates) :
    (perform (.closeRecord id) session).GoesThrough
      (Step.emissions session (.closeRecord id)) := by
  cases found : session.records.lookup id with
  | none =>
      rw [perform, silently, closeRecord_of_none found]
      simp only [Step.emissions, found]
      exact Outcome.goesThrough_of_silent rfl rfl
  | some record =>
      have closed :=
        (record.close_goesThroughOne reliable.here
          terminates.here).goesThrough
      rw [perform, silently, closeRecord_of_some found]
      simp only [Step.emissions, found]
      exact (closed.mapState _).mapValue _

theorem goesThrough_statement
    (site : Statement)
    (errno : Int32)
    (argument : List Piece)
    (reliable : session.host.Reliable)
    (terminates : session.host.Terminates) :
    (perform (.statement site errno argument) session).GoesThrough
      (Step.emissions session (.statement site errno argument)) := by
  have numbered_reliable : ({ session.host with errno := errno } : Host).Reliable :=
    ⟨reliable.here, reliable.shared⟩
  have numbered_terminates :
      ({ session.host with errno := errno } : Host).Terminates :=
    ⟨terminates.here, terminates.shared⟩
  cases enabled : session.host.sharedContext.shouldEmit site.severity with
  | true =>
      have written :=
        (site.record errno).writeAndCloseShared_goesThrough argument
          numbered_reliable numbered_terminates
      rw [perform_statement_of_enabled enabled]
      simp only [Step.emissions, enabled, if_true]
      exact ((written.mapValue _).mapValue _).mapState _
  | false =>
      rw [perform_statement_of_disabled enabled]
      simp only [Step.emissions, enabled, Bool.false_eq_true, if_false]
      exact Outcome.goesThrough_of_silent rfl rfl

theorem goesThrough_bridgeMessage
    (message : Bridge.Message)
    (argument : List Piece)
    (reliable : session.host.Reliable)
    (terminates : session.host.Terminates) :
    (perform (.bridgeMessage message argument) session).GoesThrough
      (Step.emissions session (.bridgeMessage message argument)) := by
  cases enabled : Bridge.enabled message.level session.host with
  | true =>
      have written :=
        message.record.writeAndCloseShared_goesThrough argument reliable
          terminates
      rw [perform_bridgeMessage_of_enabled enabled]
      simp only [Step.emissions, enabled, if_true]
      exact ((written.mapValue _).mapValue _).mapState _
  | false =>
      rw [perform_bridgeMessage_of_disabled enabled]
      simp only [Step.emissions, enabled, Bool.false_eq_true, if_false]
      exact Outcome.goesThrough_of_silent rfl rfl

/-- Every step of a single thread goes through the emissions that it asks for. -/
theorem perform_goesThrough
    (step : Step)
    (alone : step.isConcurrent = false)
    (loggers : ∀ logger ∈ step.loggers, logger.Reliable)
    (aborters : ∀ aborter ∈ step.aborters, aborter = .terminate)
    (reliable : session.host.Reliable)
    (terminates : session.host.Terminates) :
    (perform step session).GoesThrough (step.emissions session) := by
  cases step with
  | record record argument =>
      exact
        goesThrough_of_onHost rfl
          (record.writeAndClose_goesThrough argument reliable terminates)
  | append id fragments =>
      cases found : session.records.lookup id with
      | none =>
          rw [perform, append_of_none found]
          exact Outcome.goesThrough_of_silent rfl rfl
      | some record =>
          rw [perform, append_of_some found]
          exact Outcome.goesThrough_of_silent rfl rfl
  | write id argument =>
      exact goesThrough_write id argument reliable terminates
  | closeRecord id =>
      exact goesThrough_closeRecord id reliable terminates
  | closeScope id =>
      cases found : session.scopes.lookup id with
      | none =>
          rw [perform, silently, closeScope_of_none found]
          exact Outcome.goesThrough_of_silent rfl rfl
      | some previous =>
          rw [perform, silently, closeScope_of_some found]
          exact Outcome.goesThrough_of_silent rfl rfl
  | emit header message =>
      exact
        goesThrough_of_onHost rfl
          (emit_goesThrough header message reliable.here terminates.here)
  | setUp request =>
      exact
        goesThrough_of_onHost rfl
          (request.run_goesThrough session.host
            (loggers request.logger List.mem_cons_self)
            (aborters request.aborter List.mem_cons_self))
  | setUpFromEnvironment program logger aborter =>
      exact
        goesThrough_of_onHost rfl
          (Initialization.run_goesThrough session.host
            (loggers logger List.mem_cons_self)
            (aborters aborter List.mem_cons_self))
  | configure choices =>
      have ran :=
        ((Configuration.ofChoices choices).request
          session.host).run_goesThrough session.host
            (loggers _ List.mem_cons_self) (aborters _ List.mem_cons_self)
      rw [← Configuration.run_eq_request] at ran
      exact goesThrough_of_onHost rfl ran
  | statement site errno argument =>
      exact goesThrough_statement site errno argument reliable terminates
  | bridgeMessage message argument =>
      exact goesThrough_bridgeMessage message argument reliable terminates
  | concurrent threads loggers =>
      cases alone
  | concurrentSetUp requests =>
      cases alone
  | _ =>
      exact Outcome.goesThrough_of_silent rfl rfl

/-! ## Whole runs -/

/-- A run went through a plan, up to the first emission of it that aborts. -/
structure Report.GoesThrough
    (report : Report)
    (emissions : List Emission) : Prop where
  received :
    report.events.map Event.reception =
      (Emission.upToAbort emissions).flatMap Emission.terminalReceptions
  termination_eq :
    report.termination =
      if emissions.any Emission.aborts then some .aborter else none

theorem Terminal.perform_goesThrough
    (terminal : Terminal steps)
    (member : step ∈ steps)
    (reliable : session.host.Reliable)
    (terminates : session.host.Terminates) :
    (perform step session).GoesThrough (step.emissions session) :=
  Session.perform_goesThrough step
    (terminal.alone step member)
    (terminal.loggers step member)
    (terminal.aborters step member)
    reliable terminates

theorem Accounts.terminates
    (accounts : Accounts session step)
    (terminates : session.host.Terminates)
    (installs : ∀ aborter ∈ step.aborters, aborter = .terminate) :
    (perform step session).state.host.Terminates :=
  @Accounts.aborters _ _ (fun aborter => aborter = .terminate)
    accounts terminates installs

/-- A run goes through its plan. -/
theorem runSteps_goesThrough
    (terminal : Terminal steps)
    (reliable : session.host.Reliable)
    (terminates : session.host.Terminates) :
    (runSteps session steps).GoesThrough (plan session steps) := by
  induction steps generalizing session with
  | nil =>
      exact ⟨rfl, rfl⟩
  | cons step rest induction =>
      have goes :=
        terminal.perform_goesThrough List.mem_cons_self reliable terminates
      cases aborting : (step.emissions session).any Emission.aborts with
      | true =>
          have ended := goes.ended aborting
          constructor
          · rw [events_runSteps_of_ended ended, goes.received, plan,
              Emission.upToAbort_append_of_aborting aborting]
          · rw [runSteps_of_ended ended, plan, List.any_append, aborting]
            rfl
      | false =>
          have alive := goes.alive aborting
          have accounts :=
            terminal.toReliableSteps.accounts List.mem_cons_self reliable
          have next :=
            induction (terminal.of_subset (List.subset_cons_self step rest))
              (accounts.reliable reliable
                (terminal.loggers step List.mem_cons_self))
              (accounts.terminates terminates
                (terminal.aborters step List.mem_cons_self))
          constructor
          · rw [events_runSteps_of_alive alive, List.map_append, goes.received,
              next.received, plan,
              Emission.upToAbort_append_of_quiet aborting,
              Emission.upToAbort_of_quiet aborting, List.flatMap_append]
          · rw [runSteps_of_alive alive, plan, List.any_append, aborting,
              Bool.false_or]
            exact next.termination_eq

/-- Whatever outlives the first steps of a run has the rest of its plan before it. -/
theorem plan_append
    (outlived : (runSteps session earlier).termination = none)
    (later : List Step) :
    plan session (earlier ++ later) =
      plan session earlier ++
        plan (runSteps session earlier).final later := by
  induction earlier generalizing session with
  | nil =>
      rfl
  | cons step rest induction =>
      have alive := alive_of_termination_eq_none outlived
      rw [runSteps_of_alive alive] at outlived ⊢
      rw [List.cons_append, plan, plan, induction outlived, List.append_assoc]
      rfl

theorem any_aborts_iff {emissions : List Emission} :
    emissions.any Emission.aborts = true ↔
      ∃ emission ∈ emissions, emission.header.severity = .fatal := by
  simp only [List.any_eq_true, Emission.aborts, Severity.aborts_iff]

theorem any_aborts_eq_false_iff {emissions : List Emission} :
    emissions.any Emission.aborts = false ↔
      ∀ emission ∈ emissions, emission.header.severity ≠ .fatal := by
  rw [← Bool.not_eq_true, any_aborts_iff]
  constructor
  · intro nowhere emission member fatal
    exact nowhere ⟨emission, member, fatal⟩
  · rintro nowhere ⟨emission, member, fatal⟩
    exact nowhere emission member fatal

/-- Emissions that do not abort come to their lines. -/
theorem flatMap_terminalReceptions_of_quiet
    {emissions : List Emission}
    (quiet : ∀ emission ∈ emissions, emission.header.severity ≠ .fatal) :
    emissions.flatMap Emission.terminalReceptions =
      emissions.flatMap Emission.lines := by
  have same :
      ∀ emission ∈ emissions,
        emission.terminalReceptions = emission.lines := by
    intro emission member
    have returns : emission.aborts ≠ true := by
      rw [Emission.aborts, ne_eq, Severity.aborts_iff]
      exact quiet emission member
    rw [Emission.terminalReceptions, if_neg returns, List.append_nil]
  rw [List.flatMap_def, List.flatMap_def, List.map_congr_left same]

/-- Up to the first that aborts they come to their lines, and then to its abort. -/
theorem flatMap_terminalReceptions_upToAbort
    {before after : List Emission}
    {last : Emission}
    (quiet : ∀ emission ∈ before, emission.header.severity ≠ .fatal)
    (fatal : last.header.severity = .fatal) :
    (Emission.upToAbort (before ++ last :: after)).flatMap
        Emission.terminalReceptions =
      before.flatMap Emission.lines ++
        (last.lines ++ [.abort .terminate last.message]) := by
  have aborts : last.aborts = true := Severity.aborts_iff.mpr fatal
  rw [Emission.upToAbort_append_of_quiet (any_aborts_eq_false_iff.mpr quiet),
    List.flatMap_append, flatMap_terminalReceptions_of_quiet quiet,
    Emission.upToAbort, if_pos aborts, List.flatMap_singleton,
    Emission.terminalReceptions, if_pos aborts]

/-! ## A run up to the step that ends the process -/

/-- The steps of a run up to one, which is the first to emit at the highest severity. -/
structure EndsWith
    (session : Session)
    (earlier : List Step)
    (step : Step) : Prop where
  quiet :
    ∀ emission ∈ plan session earlier, emission.header.severity ≠ .fatal
  fatal :
    ∃ emission ∈ step.emissions (runSteps session earlier).final,
      emission.header.severity = .fatal

section EndsWith

variable
    (terminal : Terminal (earlier ++ [step]))
    (reliable : session.host.Reliable)
    (terminates : session.host.Terminates)
    (ends : EndsWith session earlier step)

include terminal reliable terminates ends

theorem EndsWith.outlived :
    (runSteps session earlier).termination = none := by
  have goes :=
    runSteps_goesThrough
      (terminal.of_subset (List.subset_append_left earlier [step]))
      reliable terminates
  rw [goes.termination_eq, any_aborts_eq_false_iff.mpr ends.quiet]
  rfl

theorem EndsWith.termination_eq :
    (runSteps session (earlier ++ [step])).termination = some .aborter := by
  have goes := runSteps_goesThrough terminal reliable terminates
  have outlived := ends.outlived terminal reliable terminates
  have aborting : (plan session (earlier ++ [step])).any Emission.aborts = true := by
    rw [plan_append outlived, List.any_append, plan, plan, List.append_nil,
      any_aborts_iff.mpr ends.fatal, Bool.or_true]
  rw [goes.termination_eq, aborting]
  rfl

/-- That step is the last, and it has no answer. -/
theorem EndsWith.runSteps_eq :
    runSteps session (earlier ++ [step]) =
      ⟨(runSteps session earlier).answers,
        (perform step (runSteps session earlier).final).events,
        some .aborter,
        (perform step (runSteps session earlier).final).state⟩ := by
  have outlived := ends.outlived terminal reliable terminates
  have ended_at := ends.termination_eq terminal reliable terminates
  rw [runSteps_append outlived] at ended_at ⊢
  by_cases ended :
      ∃ cause,
        (perform step (runSteps session earlier).final).exit =
          .error (.terminated cause)
  · rcases ended with ⟨cause, ended⟩
    rw [runSteps_of_ended ended] at ended_at ⊢
    rw [List.append_nil, Option.some.inj ended_at]
  · rw [runSteps_of_alive (not_exists.mp ended)] at ended_at
    cases ended_at

/-- Whatever was to follow that step makes no difference. -/
theorem EndsWith.runSteps_append_eq (later : List Step) :
    runSteps session (earlier ++ step :: later) =
      runSteps session (earlier ++ [step]) := by
  have split : earlier ++ step :: later = (earlier ++ [step]) ++ later := by
    rw [List.append_assoc, List.singleton_append]
  rw [split]
  exact
    runSteps_append_of_terminated
      (ends.termination_eq terminal reliable terminates) later

/-- Nor are there any closings after it. -/
theorem EndsWith.run_eq (later : List Step) :
    run session (earlier ++ step :: later) =
      runSteps session (earlier ++ [step]) := by
  have cut_short := ends.runSteps_append_eq terminal reliable terminates later
  have ended :
      (runSteps session (earlier ++ step :: later)).terminated = true := by
    rw [cut_short, Report.terminated,
      ends.termination_eq terminal reliable terminates]
    rfl
  rw [run, if_pos ended, cut_short]

/-- Nothing that was received before that step is taken back. -/
theorem EndsWith.lost_eq : (runSteps session earlier).lost = [] := by
  apply lost_runAll_of_alive
  show (runSteps session earlier).terminated = false
  rw [Report.terminated, ends.outlived terminal reliable terminates]
  rfl

omit terminal reliable terminates in
/-- Scopes are neither opened nor closed by a step that emits. -/
theorem EndsWith.apart : step.isScoping = false := by
  rcases ends.fatal with ⟨emission, member, _⟩
  cases step with
  | openScope id severity =>
      cases member
  | closeScope id =>
      cases member
  | _ =>
      rfl

end EndsWith

/-! ## The law -/

/-- What it means for a whole session that all its aborters end the process. -/
structure EndingLaw (session : Session) (steps : List Step) : Prop where
  /--
  The process ends before its time if and only if an emission of the highest
  severity is asked for, be it by a step, by a record in an argument, by an
  initialization with bad tags, or by a closing at the end of the session.
  -/
  ended :
    (run session steps).terminated = true ↔
      ∃ emission ∈ wholePlan session steps, emission.header.severity = .fatal
  /-- It is always an aborter that ends it, so nothing is said on the terminal. -/
  wordless :
    ∀ cause, (run session steps).termination = some cause →
      cause = .aborter ∧ (run session steps).lastWords? = none
  /-- Without an emission of that severity, all that is asked for is received. -/
  outlived :
    (∀ emission ∈ wholePlan session steps,
        emission.header.severity ≠ .fatal) →
      (run session steps).events.map Event.reception =
        (wholePlan session steps).flatMap Emission.lines
  /--
  Otherwise the lines of all emissions are received up to the first of that
  severity, then all lines of that one, and nothing but the call of the aborter
  after them.
  -/
  received :
    ∀ (before : List Emission) (last : Emission) (after : List Emission),
      wholePlan session steps = before ++ last :: after →
        (∀ emission ∈ before, emission.header.severity ≠ .fatal) →
          last.header.severity = .fatal →
            (run session steps).events.map Event.reception =
              before.flatMap Emission.lines ++
                (last.lines ++ [.abort .terminate last.message])
  /--
  The step with that emission, which may be a closing, is the last to take place.
  It has no answer, and whatever is open at that moment is never closed.
  -/
  last :
    ∀ (earlier : List Step) (step : Step) (later : List Step),
      stepsToEnd session steps = earlier ++ step :: later →
        EndsWith session earlier step →
          (run session steps).final =
              (perform step (runSteps session earlier).final).state ∧
            (run session steps).final.scopes =
              (runSteps session earlier).final.scopes ∧
            (run session steps).events =
              (runSteps session earlier).events ++
                (perform step (runSteps session earlier).final).events ∧
            (run session steps).answers.length = earlier.length
  /-- So whatever else was to follow makes no difference at all. -/
  sealed :
    ∀ (earlier : List Step) (step : Step) (later others : List Step),
      steps = earlier ++ step :: later →
        EndsWith session earlier step →
          run session (earlier ++ step :: others) = run session steps
  /--
  If a nested record of the highest severity takes effect in the argument of a
  record, the record is not closed any more, in whatever way it was to be.  With
  an aborter that leaves for its caller it is closed all the same.
  -/
  nested :
    ∀ (record inner : Record) (argument : List Piece) (host : Host),
      host.context.logger.Reliable →
        .nested inner ∈ Argument.performed argument →
          inner.severity = .fatal →
            (host.context.aborter = .terminate →
                ∀ close : Record → Operation Host Unit,
                  record.writeThen argument close host =
                      (Argument.write argument host).outcome ∧
                    (record.writeThen argument close host).exit =
                      .error (.terminated .aborter)) ∧
              (host.context.aborter.Unwinds →
                (record.writeAndClose argument host).events.map
                    Event.reception =
                  (Argument.write argument host).outcome.events.map
                      Event.reception ++
                    ((record.written argument).emissions
                        (Argument.contextAfter host.context
                          argument)).flatMap
                      Emission.receptions)

/-- What a whole session goes through is its plan, up to the first abort. -/
theorem run_goesThrough
    (terminal : Terminal steps)
    (reliable : session.host.Reliable)
    (terminates : session.host.Terminates) :
    (run session steps).termination =
        (if (wholePlan session steps).any Emission.aborts then
          some .aborter
        else
          none) ∧
      (run session steps).events.map Event.reception =
        (Emission.upToAbort (wholePlan session steps)).flatMap
          Emission.terminalReceptions := by
  have agrees := run_agrees session steps
  have goes :
      (runSteps session (stepsToEnd session steps)).GoesThrough
        (wholePlan session steps) :=
    runSteps_goesThrough (terminal.toEnd session) reliable terminates
  constructor
  · exact agrees.termination_eq.trans goes.termination_eq
  · rw [agrees.events_eq, goes.received]

/-- A record is closed after its argument was formatted, if aborters leave for callers. -/
theorem writeAndClose_received_of_unwinds
    (record : Record)
    (argument : List Piece)
    {host : Host}
    (reliable : host.context.logger.Reliable)
    (unwinds : host.context.aborter.Unwinds) :
    (record.writeAndClose argument host).events.map Event.reception =
      (Argument.write argument host).outcome.events.map Event.reception ++
        ((record.written argument).emissions
            (Argument.contextAfter host.context argument)).flatMap
          Emission.receptions := by
  have performs := Argument.write_performs argument reliable
  have reached_reliable :
      (Argument.write argument
          host).outcome.state.context.logger.Reliable := by
    rw [performs.context_eq, Argument.contextAfter_logger]
    exact reliable
  have written_received :=
    Record.writeThen_received performs unwinds
      ((record.written argument).close_emits reached_reliable)
  rw [performs.context_eq] at written_received
  rw [Record.writeAndClose, written_received, performs.received]

/-- Every session whose aborters all end the process obeys the law. -/
theorem endingLaw_of_terminal
    (terminal : Terminal steps)
    (reliable : session.host.Reliable)
    (terminates : session.host.Terminates) :
    EndingLaw session steps := by
  have agrees := run_agrees session steps
  have at_end := terminal.toEnd session
  rcases run_goesThrough terminal reliable terminates with
    ⟨termination_eq, received⟩
  refine ⟨?_, ?_, ?_, ?_, ?_, ?_, ?_⟩
  · rw [Report.terminated, termination_eq, ← any_aborts_iff]
    cases (wholePlan session steps).any Emission.aborts <;> simp
  · intro cause ended
    rw [termination_eq] at ended
    split at ended
    · rcases Option.some.inj ended with rfl
      refine ⟨rfl, ?_⟩
      rw [Report.lastWords?, termination_eq]
      split <;> rfl
    · cases ended
  · intro quiet
    rw [received,
      Emission.upToAbort_of_quiet (any_aborts_eq_false_iff.mpr quiet),
      flatMap_terminalReceptions_of_quiet quiet]
  · intro before last after planned quiet fatal
    rw [received, planned]
    exact flatMap_terminalReceptions_upToAbort quiet fatal
  · intro earlier step later whole ends
    have part : Terminal (earlier ++ [step]) :=
      at_end.of_subset (by rw [whole]; simp)
    have outlived := ends.outlived part reliable terminates
    have cut_short := ends.runSteps_append_eq part reliable terminates later
    rw [← whole, ends.runSteps_eq part reliable terminates] at cut_short
    rw [agrees.final_eq, agrees.events_eq, agrees.answered_eq, cut_short]
    refine ⟨rfl, scopes_perform ends.apart, ?_, ?_⟩
    · simp only [Report.events, ends.lost_eq part reliable terminates,
        List.append_nil]
    · exact length_answers_of_outlived outlived
  · rintro earlier step later others rfl ends
    have part : Terminal (earlier ++ [step]) :=
      terminal.of_subset (by simp)
    rw [ends.run_eq part reliable terminates, ends.run_eq part reliable terminates]
  · intro record inner argument host logger_reliable member fatal
    constructor
    · intro logger_terminates close
      exact
        record.writeThen_of_nested logger_reliable logger_terminates member
          fatal close
    · intro unwinds
      exact
        writeAndClose_received_of_unwinds record argument logger_reliable unwinds

/-- A nested abort, while a record and a scope are open and more was to follow. -/
theorem endingLaw_of_nested_abort :
    EndingLaw
      (start
        (Host.around
          (Context.new (.channel "main" .main true) .terminate "app")))
      [.openScope "s" .error,
        .openRecord "r" (Record.start "src/a.rs" 1 .main .error none),
        .record (Record.start "src/a.rs" 2 .unspecified .error none)
          [.text "before",
            .nested
              ((Record.start "src/b.rs" 3 .system .fatal none).append
                "bad state\nat step 2"),
            .text "after"],
        .append "r" ["never seen"],
        .setAborter .terminate] :=
  endingLaw_of_terminal
    ⟨⟨by simp [Step.isConcurrent], by simp [Step.loggers]⟩,
      by simp [Step.aborters]⟩
    (Host.everywhere_around fun _ => rfl)
    (Host.everywhere_around rfl)

end GatedLog.Session
