import GatedLog.Proofs.FormattingLaw
import GatedLog.Proofs.Session.Closing
import GatedLog.Proofs.Session.ScopeLaw
import GatedLog.Proofs.Threshold

/-!
# The threshold only removes whole records

Two runs with the same records and log statements are compared, one under a
lower and one under a higher threshold.  Neither content nor order of what is
received depends on the threshold, and no call of an aborter does.  All that the
higher threshold does is to take away lines: those below it that are not of the
fatal tiers.

A statement asks the threshold twice, before its argument is formatted and when
its record is closed.  As long as arguments only write text nothing can move the
threshold in between, so the first question is of no account.
-/

namespace GatedLog

/-- Whether a piece of an argument writes text and does nothing else. -/
def Piece.isText : Piece → Bool
  | .text _ => true
  | _ => false

/-- Formatting an argument that only writes text leaves the process as it was. -/
theorem Argument.write_of_texts
    {argument : List Piece}
    (texts : argument.all Piece.isText = true)
    (host : Host) :
    write argument host =
      ⟨String.join (fragments argument), Operation.done .complete host⟩ := by
  induction argument with
  | nil =>
      rfl
  | cons piece rest induction =>
      rcases Bool.and_eq_true_iff.mp texts with ⟨is_text, others⟩
      cases piece with
      | text fragment =>
          rw [write, induction others]
          simp [Writing.afterText, fragments, performed, Piece.stops,
            Piece.fragment?]
      | _ =>
          cases is_text

/-- A record that text is formatted into is simply closed with that text. -/
theorem Record.writeThen_of_texts
    {argument : List Piece}
    (texts : argument.all Piece.isText = true)
    (record : Record)
    (close : Record → Operation Host Unit)
    (host : Host) :
    record.writeThen argument close host =
      (close (record.written argument) host).mapValue fun _ => .complete := by
  have written := Argument.write_of_texts texts host
  have returned :
      (Argument.write argument host).outcome.exit = .ok .complete := by
    rw [written]
    rfl
  rw [writeThen_of_returned returned, written]
  rfl

/--
Whether a statement formats its argument is of no account if the argument only
writes text: the threshold is the same when its record is closed.
-/
theorem Statement.run_of_texts
    {host : Host}
    {argument : List Piece}
    (texts : argument.all Piece.isText = true)
    (alone : host.shared = none)
    (site : Statement) :
    site.run argument host =
      (((site.record host.errno).written argument).close host).mapValue
        fun _ => host.context.shouldEmit site.severity := by
  have shared_eq : host.sharedContext = host.context := by
    simp [Host.sharedContext, alone]
  rw [run, shared_eq]
  cases enabled : host.context.shouldEmit site.severity with
  | true =>
      have closed :
          ((site.record host.errno).written argument).closeShared host =
            ((site.record host.errno).written argument).close host :=
        Host.onShared_of_none alone _
      rw [if_pos rfl, runUnguarded, Record.writeAndCloseShared,
        Record.writeThen_of_texts texts, closed]
      cases exit :
          (((site.record host.errno).written argument).close host).exit <;>
        simp [Outcome.mapValue, Except.map, exit]
  | false =>
      have filtered :=
        @Record.close_of_filtered ((site.record host.errno).written argument)
          host enabled
      rw [filtered, if_neg Bool.false_ne_true]
      rfl

/--
A context whose logger takes every message and writes to no device, and whose
aborter leaves for its caller.
-/
structure Context.Calm (context : Context) : Prop where
  reliable : context.logger.Reliable
  deviceless : context.logger.Deviceless
  unwinds : context.aborter.Unwinds

/-- An emission does not end the process if its aborter leaves for its caller. -/
theorem Emission.exit_alive
    {emission : Emission}
    (unwinds : emission.context.aborter.Unwinds)
    (cause : Termination) :
    emission.exit ≠ .error (.terminated cause) := by
  rw [exit]
  split
  · rw [Aborter.departure_of_unwinds unwinds]
    simp
  · simp

/-- The same process, with another threshold in the context at hand. -/
def Host.under (host : Host) (threshold : Severity) : Host :=
  host.withContext (host.context.withMinimum threshold)

@[simp]
theorem Host.under_context (host : Host) (threshold : Severity) :
    (host.under threshold).context = host.context.withMinimum threshold :=
  rfl

namespace Session

/-- The same session, with another threshold in the context at hand. -/
def under (session : Session) (threshold : Severity) : Session :=
  session.withHost (session.host.under threshold)

namespace Step

/--
Whether a step only logs text: it executes a statement whose argument writes
text, or it begins, writes, shows or closes a record.
-/
def logsText : Step → Bool
  | .record _ argument => argument.all Piece.isText
  | .openRecord _ _ => true
  | .append _ _ => true
  | .write _ argument => argument.all Piece.isText
  | .inspect _ => true
  | .closeRecord _ => true
  | .statement _ _ argument => argument.all Piece.isText
  | _ => false

/-- Whether a step executes a log statement. -/
def isStatement : Step → Bool
  | .statement _ _ _ => true
  | _ => false

/-- The record that a step of this kind closes, if it closes any. -/
def closed (records : List (String × Record)) : Step → List Record
  | .record draft argument => [draft.written argument]
  | .closeRecord id => (records.lookup id).toList
  | .statement site errno argument => [(site.record errno).written argument]
  | _ => []

/-- The session that a step of this kind leaves behind. -/
def left (session : Session) : Step → Session
  | .openRecord id draft =>
      { session with records := session.records ++ [(id, draft)] }
  | .append id fragments =>
      match session.records.lookup id with
      | none => session
      | some draft =>
          { session with
            records :=
              replaceRecord id (draft.appendAll fragments) session.records }
  | .write id argument =>
      match session.records.lookup id with
      | none => session
      | some draft =>
          { session with
            records := replaceRecord id (draft.written argument) session.records }
  | .closeRecord id =>
      match session.records.lookup id with
      | none => session
      | some _ =>
          { session with
            records := session.records.eraseP fun entry => entry.1 == id }
  | .statement _ errno _ =>
      session.withHost { session.host with errno := errno }
  | _ => session

end Step

variable
    {session : Session}
    {step : Step}
    {steps : List Step}
    {low high threshold : Severity}

/-! ## One step -/

/-- A step closes some records, one after the other, and leaves a session behind. -/
structure Closes
    (session : Session)
    (step : Step)
    (records : List Record)
    (later : Session) : Prop where
  events_eq :
    (perform step session).events =
      records.flatMap fun record =>
        (record.emissions session.host.context).flatMap Emission.events
  state_eq : (perform step session).state = later
  alive : ∀ cause, (perform step session).exit ≠ .error (.terminated cause)

/-- A step that is over once a record is closed, for which it returns something. -/
theorem closes_of_triple
    {record : Record}
    {later : Session}
    {function : Unit → Result}
    (unwinds : session.host.context.aborter.Unwinds)
    (performed :
      perform step session =
        ⟨(record.emission session.host.context).exit.map function, later,
          (record.emissions session.host.context).flatMap Emission.events⟩) :
    Closes session step [record] later := by
  refine ⟨?_, ?_, ?_⟩
  · rw [performed, List.flatMap_singleton]
  · rw [performed]
  · intro cause
    have alive :=
      @Emission.exit_alive (record.emission session.host.context) unwinds cause
    rw [performed]
    cases exit : (record.emission session.host.context).exit with
    | ok value =>
        simp [Except.map]
    | error departure =>
        rw [exit] at alive
        simpa [Except.map] using alive

theorem closes_record
    {argument : List Piece}
    (texts : argument.all Piece.isText = true)
    (record : Record)
    (calm : session.host.context.Calm) :
    Closes session (.record record argument) [record.written argument]
      session := by
  have closed :=
    (record.written argument).close_eq calm.reliable calm.deviceless
  refine @closes_of_triple _ _ _ _ (fun _ => .written .complete) calm.unwinds ?_
  simp only [perform, onHost, Record.writeAndClose,
    Record.writeThen_of_texts texts, closed]
  cases ((record.written argument).emission session.host.context).exit <;> rfl

theorem closes_closeRecord
    {id : String}
    {record : Record}
    (found : session.records.lookup id = some record)
    (calm : session.host.context.Calm) :
    Closes session (.closeRecord id) [record]
      { session with
        records := session.records.eraseP fun entry => entry.1 == id } := by
  have closed := record.close_eq calm.reliable calm.deviceless
  refine @closes_of_triple _ _ _ _ (fun _ => .nothing) calm.unwinds ?_
  rw [perform, silently, closeRecord_of_some found, closed]
  rfl

theorem closes_statement
    {argument : List Piece}
    (texts : argument.all Piece.isText = true)
    (site : Statement)
    (errno : Int32)
    (alone : session.host.shared = none)
    (calm : session.host.context.Calm) :
    Closes session (.statement site errno argument)
      [(site.record errno).written argument]
      (session.withHost { session.host with errno := errno }) := by
  have closed :=
    @Record.close_eq { session.host with errno := errno }
      ((site.record errno).written argument) calm.reliable calm.deviceless
  have ran :=
    @Statement.run_of_texts { session.host with errno := errno } argument texts
      alone site
  refine
    @closes_of_triple _ _ _ _
      (fun _ => .formatted (session.host.context.shouldEmit site.severity))
      calm.unwinds ?_
  rw [perform_statement, ran, closed]
  cases (((site.record errno).written argument).emission
    session.host.context).exit <;> rfl

theorem closes_of_silent
    {later : Session}
    {result : Result}
    (performed : perform step session = ⟨.ok result, later, []⟩) :
    Closes session step [] later := by
  refine ⟨?_, ?_, fun _ => ?_⟩ <;> simp [performed]

/-- Every step that only logs text closes a record at most, and nothing is lost. -/
theorem closes_of_logsText
    (logs : step.logsText = true)
    (reaches : step.isStatement = true → session.host.shared = none)
    (calm : session.host.context.Calm) :
    Closes session step (step.closed session.records) (step.left session) := by
  cases step with
  | record record argument =>
      exact closes_record logs record calm
  | openRecord id record =>
      exact closes_of_silent rfl
  | append id fragments =>
      cases found : session.records.lookup id with
      | none =>
          simp only [Step.closed, Step.left, found]
          exact closes_of_silent (append_of_none found fragments)
      | some record =>
          simp only [Step.closed, Step.left, found]
          exact closes_of_silent (append_of_some found fragments)
  | write id argument =>
      cases found : session.records.lookup id with
      | none =>
          simp only [Step.closed, Step.left, found]
          exact closes_of_silent (write_of_none found argument)
      | some record =>
          simp only [Step.closed, Step.left, found]
          refine @closes_of_silent _ _ _ (.written .complete) ?_
          rw [perform, write_of_some found,
            Argument.write_of_texts logs session.host]
          rfl
  | inspect id =>
      exact closes_of_silent rfl
  | closeRecord id =>
      cases found : session.records.lookup id with
      | none =>
          simp only [Step.closed, Step.left, found, Option.toList_none]
          refine @closes_of_silent _ _ _ .nothing ?_
          rw [perform, silently, closeRecord_of_none found]
          rfl
      | some record =>
          simp only [Step.closed, Step.left, found, Option.toList_some]
          exact closes_closeRecord found calm
  | statement site errno argument =>
      exact closes_statement logs site errno (reaches rfl) calm
  | _ =>
      cases logs

/-! ## Runs under two thresholds -/

theorem Step.left_under (step : Step) (session : Session) (threshold : Severity) :
    step.left (session.under threshold) = (step.left session).under threshold := by
  have same_records : (session.under threshold).records = session.records := rfl
  cases step with
  | append id fragments =>
      simp only [left, same_records]
      split <;> rfl
  | write id argument =>
      simp only [left, same_records]
      split <;> rfl
  | closeRecord id =>
      simp only [left, same_records]
      split <;> rfl
  | _ =>
      rfl

/-- Such a step leaves the contexts alone. -/
theorem Step.left_contexts (step : Step) (session : Session) :
    (step.left session).host.context = session.host.context ∧
      (step.left session).host.shared = session.host.shared := by
  cases step with
  | append id fragments =>
      simp only [left]
      split <;> exact ⟨rfl, rfl⟩
  | write id argument =>
      simp only [left]
      split <;> exact ⟨rfl, rfl⟩
  | closeRecord id =>
      simp only [left]
      split <;> exact ⟨rfl, rfl⟩
  | _ =>
      exact ⟨rfl, rfl⟩

/-- A report of a run, and one of the same run under a higher threshold. -/
structure Report.Lessened (threshold : Severity) (lower higher : Report) : Prop where
  events_eq : higher.events = lower.events.filter (Event.survives threshold)
  lower_outlived : lower.termination = none
  higher_outlived : higher.termination = none
  final_eq : higher.final = lower.final.under threshold

/-- Step by step, a run under a higher threshold differs in the lines that it lacks. -/
theorem runSteps_under
    (logs : ∀ step ∈ steps, step.logsText = true)
    (reaches :
      ∀ step ∈ steps, step.isStatement = true → session.host.shared = none)
    (calm : session.host.context.Calm)
    (ordered : session.host.context.minimum ≤ threshold) :
    (runSteps session steps).Lessened threshold
      (runSteps (session.under threshold) steps) := by
  induction steps generalizing session with
  | nil =>
      exact ⟨rfl, rfl, rfl, rfl⟩
  | cons step rest induction =>
      have logs_here := logs step List.mem_cons_self
      have reaches_here := reaches step List.mem_cons_self
      have lower := closes_of_logsText logs_here reaches_here calm
      have higher :=
        @closes_of_logsText (session.under threshold) _ logs_here reaches_here
          ⟨calm.reliable, calm.deviceless, calm.unwinds⟩
      have first :
          (perform step (session.under threshold)).events =
            (perform step session).events.filter (Event.survives threshold) := by
        rw [higher.events_eq, lower.events_eq, List.filter_flatMap]
        exact
          congrArg (List.flatMap · _)
            (funext fun record => record.events_withMinimum ordered)
      rcases step.left_contexts session with ⟨context_eq, shared_eq⟩
      have later :=
        @induction (step.left session)
          (fun step member => logs step (List.mem_cons_of_mem _ member))
          (fun step member =>
            shared_eq ▸ reaches step (List.mem_cons_of_mem _ member))
          (context_eq ▸ calm) (context_eq ▸ ordered)
      rw [← step.left_under, ← higher.state_eq, ← lower.state_eq] at later
      refine ⟨?_, ?_, ?_, ?_⟩
      · rw [events_runSteps_of_alive lower.alive,
          events_runSteps_of_alive higher.alive, first, later.events_eq,
          List.filter_append]
      · rw [runSteps_of_alive lower.alive]
        exact later.lower_outlived
      · rw [runSteps_of_alive higher.alive]
        exact later.higher_outlived
      · rw [runSteps_of_alive lower.alive, runSteps_of_alive higher.alive]
        exact later.final_eq

/-- Steps that only log text leave no scope open. -/
theorem scopes_runSteps_of_logsText
    (logs : ∀ step ∈ steps, step.logsText = true)
    (none_open : session.scopes = []) :
    (runSteps session steps).final.scopes = [] := by
  refine @runSteps_invariant session (fun reached => reached.scopes = []) steps
    none_open ?_
  intro reached step member nothing
  have apart : step.isScoping = false := by
    have logs_here := logs step member
    cases step <;> first | rfl | cases logs_here
  rw [scopes_perform apart]
  exact nothing

/-- What is closed at the end of such a run are records, and nothing else. -/
theorem mem_stepsToEnd
    (logs : ∀ step ∈ steps, step.logsText = true)
    (none_open : session.scopes = [])
    (member : step ∈ stepsToEnd session steps) :
    step.logsText = true ∧ (step.isStatement = true → step ∈ steps) := by
  rw [stepsToEnd, closings, scopes_runSteps_of_logsText logs none_open,
    List.map_nil, List.append_nil] at member
  rcases List.mem_append.mp member with given | closing
  · exact ⟨logs step given, fun _ => given⟩
  · rcases List.mem_map.mp closing with ⟨entry, _, rfl⟩
    exact ⟨rfl, fun statement => absurd statement Bool.false_ne_true⟩

/-! ## The law -/

/-- What a process receives under two thresholds, the first no higher than the second. -/
structure ThresholdLaw
    (host : Host)
    (steps : List Step)
    (low high : Severity) : Prop where
  /--
  Under the higher threshold the same is received in the same order, calls of
  aborters included, less the lines that are below that threshold and not of
  the fatal tiers.
  -/
  received :
    (run (start (host.under high)) steps).events =
      (run (start (host.under low)) steps).events.filter fun event =>
        match event with
        | .line _ line _ => line.severity.isFatal || decide (high ≤ line.severity)
        | .abort _ _ => true
  /-- So the aborters are called with the same messages. -/
  aborted :
    (run (start (host.under high)) steps).events.filterMap Event.aborted? =
      (run (start (host.under low)) steps).events.filterMap Event.aborted?
  /-- Both runs come to their ends. -/
  outlived :
    (run (start (host.under low)) steps).termination = none ∧
      (run (start (host.under high)) steps).termination = none
  /-- Beside the threshold they leave the same behind. -/
  final_eq :
    (run (start (host.under high)) steps).final =
      (run (start (host.under low)) steps).final.under high

theorem aborted?_filter_survives (threshold : Severity) (events : List Event) :
    (events.filter (Event.survives threshold)).filterMap Event.aborted? =
      events.filterMap Event.aborted? := by
  rw [List.filterMap_filter]
  congr 1
  funext event
  cases event with
  | line logger line written =>
      simp [Event.aborted?]
  | abort aborter message =>
      rfl

/-- All runs that only log text obey the law, under any two thresholds. -/
theorem thresholdLaw_of_logsText
    {host : Host}
    (logs : ∀ step ∈ steps, step.logsText = true)
    (reaches :
      (∃ step ∈ steps, step.isStatement = true) → host.shared = none)
    (calm : host.context.Calm)
    (ordered : low ≤ high) :
    ThresholdLaw host steps low high := by
  have same_end :
      ∀ {first second : Session},
        second = first.under high → closings second = closings first := by
    rintro first second rfl
    rfl
  have lower_order : (host.under low).context.minimum ≤ high := by
    rw [Host.under_context, Context.minimum_withMinimum]
    exact ordered
  have compared :=
    fun (run_steps : List Step) run_logs run_reaches =>
      @runSteps_under (start (host.under low)) run_steps high run_logs run_reaches
        ⟨calm.reliable, calm.deviceless, calm.unwinds⟩ lower_order
  have steps_compared :=
    compared steps logs fun step member statement =>
      reaches ⟨step, member, statement⟩
  have at_end :
      stepsToEnd (start (host.under high)) steps =
        stepsToEnd (start (host.under low)) steps :=
    congrArg (steps ++ ·) (same_end steps_compared.final_eq)
  have whole :=
    compared (stepsToEnd (start (host.under low)) steps)
      (fun step member => (mem_stepsToEnd logs rfl member).1)
      (fun step member statement =>
        reaches
          ⟨step, (mem_stepsToEnd logs rfl member).2 statement, statement⟩)
  have lower := run_agrees (start (host.under low)) steps
  have higher := run_agrees (start (host.under high)) steps
  rw [at_end] at higher
  have received :
      (run (start (host.under high)) steps).events =
        (run (start (host.under low)) steps).events.filter
          (Event.survives high) := by
    rw [higher.events_eq, lower.events_eq]
    exact whole.events_eq
  refine ⟨?_, ?_, ⟨?_, ?_⟩, ?_⟩
  · rw [received]
    congr 1
  · rw [received, aborted?_filter_survives]
  · rw [lower.termination_eq]
    exact whole.lower_outlived
  · rw [higher.termination_eq]
    exact whole.higher_outlived
  · rw [higher.final_eq, lower.final_eq]
    exact whole.final_eq

/-- Of four things logged only the last, and the line before the abort, stay. -/
theorem thresholdLaw_of_announced_abort :
    ThresholdLaw
      (Host.around
        (Context.new
          (.channel "main" .main true)
          (.unwind "main"
            (some
              ⟨(Record.start "src/abort.rs" 3 .system .error none).append
                "aborting", rfl⟩))
          "app"))
      [.record (Record.start "src/db.rs" 7 .unspecified .info (some 2))
          [.text "no index\nscanning"],
        .statement ⟨"src/db.rs", 9, .system, .debug, true⟩ 13 [.text "locked"],
        .openRecord "r" (Record.start "src/db.rs" 11 .main .fatal none),
        .append "r" ["bad state", "\nat step 2"]]
      .verbose .fatalWithoutAbort :=
  thresholdLaw_of_logsText
    (by decide)
    (fun _ => rfl)
    ⟨fun _ => rfl, fun _ _ => rfl, nofun⟩
    (by decide)

end Session

end GatedLog
