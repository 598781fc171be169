import GatedLog.Proofs.Session.Effects
import GatedLog.Proofs.Session.Records

/-!
# The life of a record, from its opening to its drop

Between its opening and its drop a record is nothing but a text that grows.
What is received meanwhile does not depend on it at all, and what its text has
become depends on nothing but the fragments that were written under its name.
File, line, channel, severity and error number are those of the opening;
threshold, logger, aborter and tag are those of the drop.
-/

namespace GatedLog

namespace Record

@[simp]
theorem append_empty (record : Record) :
    record.append "" = record := by
  simp [append]

theorem append_append (record : Record) (first second : String) :
    (record.append first).append second = record.append (first ++ second) := by
  simp [append, String.append_assoc]

/-- Appending fragments one by one is appending what they come to. -/
theorem appendAll_eq_append (record : Record) (fragments : List String) :
    record.appendAll fragments = record.append (String.join fragments) := by
  induction fragments generalizing record with
  | nil =>
      exact record.append_empty.symm
  | cons fragment rest induction =>
      rw [appendAll, List.foldl_cons, ← appendAll, induction, append_append,
        String.join_cons]

theorem message_start_append
    (file : String)
    (line : UInt32)
    (channel : Channel)
    (severity : Severity)
    (error : Option Int32)
    (text : String) :
    ((start file line channel severity error).append text).message =
      text ++ error.elim "" fun code => ": " ++ SystemError.describe code := by
  simp [message, append, start, errorSuffix_eq]

end Record

namespace Session

namespace Step

/-- Whether a step begins or ends the record of a name. -/
def delimits (id : String) : Step → Bool
  | .openRecord name _ => name == id
  | .closeRecord name => name == id
  | _ => false

/-- Whether a step ends the record of a name. -/
def closes (id : String) : Step → Bool
  | .closeRecord name => name == id
  | _ => false

/-- The fragments that a step writes to the record of a name, in order. -/
def fragmentsTo (id : String) : Step → List String
  | .append name fragments => if name = id then fragments else []
  | .write name argument => if name = id then Argument.fragments argument else []
  | _ => []

end Step

variable
    {id : String}
    {record : Record}
    {session : Session}
    {step : Step}

/-! ## The text of an open record -/

theorem named_append
    (name : String)
    (fragments : List String)
    (held : named id session.records = [(id, record)]) :
    named id (perform (.append name fragments) session).state.records =
      [(id,
        record.append
          (String.join (Step.fragmentsTo id (.append name fragments))))] := by
  by_cases same : name = id
  · subst same
    have found : session.records.lookup name = some record := by
      rw [lookup_eq_head?, held]
      rfl
    simp only [perform, append, Operation.modifyGet, found,
      named_replaceRecord_self, held, Step.fragmentsTo, if_true,
      Record.appendAll_eq_append]
  · simp only [Step.fragmentsTo, if_neg same, String.join_nil,
      Record.append_empty]
    simp only [perform, append, Operation.modifyGet]
    split
    · exact held
    · rw [named_replaceRecord_of_ne same]
      exact held

theorem named_write
    (name : String)
    (argument : List Piece)
    (reliable : session.host.Reliable)
    (held : named id session.records = [(id, record)]) :
    named id (perform (.write name argument) session).state.records =
      [(id,
        record.append
          (String.join (Step.fragmentsTo id (.write name argument))))] := by
  by_cases same : name = id
  · subst same
    have found : session.records.lookup name = some record := by
      rw [lookup_eq_head?, held]
      rfl
    have performs := Argument.write_performs argument reliable.here
    simp only [perform, write, found, Outcome.mapState,
      named_replaceRecord_self, held, Step.fragmentsTo, if_true,
      performs.text_eq]
  · simp only [Step.fragmentsTo, if_neg same, String.join_nil,
      Record.append_empty]
    simp only [perform, write]
    split
    · exact held
    · simp only [Outcome.mapState]
      rw [named_replaceRecord_of_ne same]
      exact held

/-- A step that does not begin or end a record adds its fragments to the text. -/
theorem named_perform
    (undelimited : step.delimits id = false)
    (reliable : session.host.Reliable)
    (held : named id session.records = [(id, record)]) :
    named id (perform step session).state.records =
      [(id, record.append (String.join (step.fragmentsTo id)))] := by
  cases step with
  | append name fragments =>
      exact named_append name fragments held
  | write name argument =>
      exact named_write name argument reliable held
  | openRecord name other =>
      have different : name ≠ id := by
        simpa [Step.delimits] using undelimited
      simp only [Step.fragmentsTo, String.join_nil, Record.append_empty]
      have opened :
          (perform (.openRecord name other) session).state.records =
            session.records ++ [(name, other)] :=
        rfl
      rw [opened, named, List.filter_append, ← named, held]
      simp [different]
  | closeRecord name =>
      have different : name ≠ id := by
        simpa [Step.delimits] using undelimited
      simp only [Step.fragmentsTo, String.join_nil, Record.append_empty]
      simp only [perform, silently, closeRecord]
      split
      · exact held
      · simp only [Outcome.mapState, Outcome.mapValue]
        rw [named_eraseP_of_ne different]
        exact held
  | closeScope name =>
      simp only [Step.fragmentsTo, String.join_nil, Record.append_empty]
      simp only [perform, silently, closeScope]
      split <;> exact held
  | _ =>
      simp only [Step.fragmentsTo, String.join_nil, Record.append_empty]
      exact held

/-- After a run, the text of an open record is what was written under its name. -/
theorem named_runSteps
    {steps : List Step}
    (steps_reliable : ReliableSteps steps)
    (undelimited : ∀ step ∈ steps, step.delimits id = false)
    (reliable : session.host.Reliable)
    (held : named id session.records = [(id, record)])
    (outlived : (runSteps session steps).termination = none) :
    named id (runSteps session steps).final.records =
      [(id,
        record.append (String.join (steps.flatMap (Step.fragmentsTo id))))] := by
  induction steps generalizing session record with
  | nil =>
      rw [List.flatMap_nil, String.join_nil, Record.append_empty]
      exact held
  | cons step rest induction =>
      have rest_reliable : ReliableSteps rest :=
        steps_reliable.of_subset (List.subset_cons_self step rest)
      have accounts := steps_reliable.accounts List.mem_cons_self reliable
      have next_reliable :=
        accounts.reliable reliable
          (steps_reliable.loggers step List.mem_cons_self)
      have next_held :=
        named_perform (undelimited step List.mem_cons_self) reliable held
      have alive := alive_of_termination_eq_none outlived
      rw [runSteps_of_alive alive] at outlived ⊢
      have reached :=
        induction rest_reliable
          (fun step member => undelimited step (List.mem_cons_of_mem _ member))
          next_reliable next_held outlived
      rw [Record.append_append, ← String.join_append, ← List.flatMap_cons]
        at reached
      exact reached

/-! ## Nothing that is received depends on an open record -/

/-- Sessions that differ at most in what is recorded under one name. -/
structure Alike (id : String) (first second : Session) : Prop where
  host_eq : first.host = second.host
  scopes_eq : first.scopes = second.scopes
  records : AlikeApart id first.records second.records

/-- Outcomes that cannot be told apart without looking at that record. -/
structure AlikeOutcomes
    (id : String)
    (first second : Outcome Session Result) : Prop where
  events_eq : first.events = second.events
  exit_eq :
    (first.exit.map fun _ => ()) = (second.exit.map fun _ => ())
  state : Alike id first.state second.state

theorem perform_alike
    {first second : Session}
    (alike : Alike id first second)
    (open_ : step.closes id = false) :
    AlikeOutcomes id (perform step first) (perform step second) := by
  rcases first with ⟨host, records, scopes⟩
  rcases second with ⟨otherHost, otherRecords, otherScopes⟩
  rcases alike with ⟨host_eq, scopes_eq, alike⟩
  dsimp only at host_eq scopes_eq alike
  subst host_eq scopes_eq
  cases step with
  | closeScope name =>
      simp only [perform, silently, closeScope]
      split
      · exact ⟨rfl, rfl, rfl, rfl, alike⟩
      · exact ⟨rfl, rfl, rfl, rfl, alike⟩
  | openRecord name record =>
      exact ⟨rfl, rfl, rfl, rfl, alike.append ⟨rfl, fun _ => rfl⟩⟩
  | append name fragments =>
      rcases alike.lookup_cases name with missing | found
      · simp only [perform, append, Operation.modifyGet, missing.1, missing.2]
        exact ⟨rfl, rfl, rfl, rfl, alike⟩
      · rcases found with ⟨old, new, present, otherPresent, same⟩
        simp only [perform, append, Operation.modifyGet, present, otherPresent]
        refine ⟨rfl, rfl, rfl, rfl, alike.replaceRecord ?_⟩
        intro different
        rw [same different]
  | write name argument =>
      rcases alike.lookup_cases name with missing | found
      · simp only [perform, write, missing.1, missing.2]
        exact ⟨rfl, rfl, rfl, rfl, alike⟩
      · rcases found with ⟨old, new, present, otherPresent, same⟩
        simp only [perform, write, present, otherPresent]
        refine ⟨rfl, rfl, rfl, rfl, alike.replaceRecord ?_⟩
        intro different
        rw [same different]
  | inspect name =>
      exact ⟨rfl, rfl, rfl, rfl, alike⟩
  | closeRecord name =>
      have different : name ≠ id := by
        simpa [Step.closes] using open_
      have found := alike.lookup_of_ne different
      simp only [perform, silently, closeRecord, ← found]
      split
      · exact ⟨rfl, rfl, rfl, rfl, alike⟩
      · exact ⟨rfl, rfl, rfl, rfl, alike.eraseP name⟩
  | _ =>
      exact ⟨rfl, rfl, rfl, rfl, alike⟩

theorem AlikeOutcomes.exit_error_iff
    {first second : Outcome Session Result}
    (alike : AlikeOutcomes id first second)
    (departure : Departure) :
    first.exit = .error departure ↔ second.exit = .error departure := by
  have forgets :
      ∀ exit : Except Departure Result,
        exit.map (fun _ => ()) = .error departure ↔ exit = .error departure := by
    intro exit
    cases exit <;> simp [Except.map]
  rw [← forgets, alike.exit_eq, forgets]

/-- Reports that cannot be told apart without looking at one record. -/
structure AlikeReports (id : String) (first second : Report) : Prop where
  events_eq : first.events = second.events
  termination_eq : first.termination = second.termination
  final : Alike id first.final second.final

theorem runSteps_alike
    {steps : List Step}
    {first second : Session}
    (alike : Alike id first second)
    (stays : ∀ step ∈ steps, step.closes id = false) :
    AlikeReports id (runSteps first steps) (runSteps second steps) := by
  induction steps generalizing first second with
  | nil =>
      exact ⟨rfl, rfl, alike⟩
  | cons step rest induction =>
      have outcomes := perform_alike alike (stays step List.mem_cons_self)
      by_cases ended :
          ∃ cause, (perform step first).exit = .error (.terminated cause)
      · rcases ended with ⟨cause, ended⟩
        have otherEnded := (outcomes.exit_error_iff _).mp ended
        rw [runSteps_of_ended ended, runSteps_of_ended otherEnded]
        refine ⟨?_, rfl, outcomes.state⟩
        simpa [Report.events] using outcomes.events_eq
      · have alive := not_exists.mp ended
        have otherAlive :
            ∀ cause, (perform step second).exit ≠ .error (.terminated cause) := by
          intro cause otherEnded
          exact alive cause ((outcomes.exit_error_iff _).mpr otherEnded)
        have later :=
          induction outcomes.state fun step member =>
            stays step (List.mem_cons_of_mem _ member)
        refine ⟨?_, ?_, ?_⟩
        · rw [events_runSteps_of_alive alive, events_runSteps_of_alive otherAlive,
            outcomes.events_eq, later.events_eq]
        · rw [runSteps_of_alive alive, runSteps_of_alive otherAlive]
          exact later.termination_eq
        · rw [runSteps_of_alive alive, runSteps_of_alive otherAlive]
          exact later.final

/-! ## The law -/

/-- What the drop of a record does that has come to a given header and message. -/
structure Dropped
    (id : String)
    (header : Header)
    (message : String)
    (reached : Session) : Prop where
  /-- The threshold of this moment lets it pass: its lines are received now. -/
  emitted :
    reached.host.context.shouldEmit header.severity = true →
      (perform (.closeRecord id) reached).events.map Event.reception =
        ((Text.splitLines message).map fun text =>
            .line reached.host.context.logger
              ⟨header, reached.host.context.tag, text⟩) ++
          if header.severity = .fatal then
            reached.host.context.aborter.announced reached.host.context ++
              [.abort reached.host.context.aborter message]
          else
            []
  /-- Otherwise nothing is received, and nothing of the process changes. -/
  filtered :
    reached.host.context.shouldEmit header.severity = false →
      (perform (.closeRecord id) reached).events = [] ∧
        (perform (.closeRecord id) reached).exit = .ok .nothing ∧
        (perform (.closeRecord id) reached).state.host = reached.host
  context_eq :
    (perform (.closeRecord id) reached).state.host.context =
      reached.host.context
  /-- The name is free again, so there is no second drop. -/
  gone :
    (perform (.closeRecord id) reached).state.records.lookup id = none

theorem dropped_of_named
    {reached : Session}
    (reliable : reached.host.Reliable)
    (held : named id reached.records = [(id, record)]) :
    Dropped id record.toHeader record.message reached := by
  have found : reached.records.lookup id = some record := by
    rw [lookup_eq_head?, held]
    rfl
  have closed := record.close_emits reliable.here
  have events_eq :
      (perform (.closeRecord id) reached).events =
        (record.close reached.host).events := by
    rw [perform, silently, closeRecord_of_some found]
    rfl
  have host_eq :
      (perform (.closeRecord id) reached).state.host =
        (record.close reached.host).state := by
    rw [perform, silently, closeRecord_of_some found]
    rfl
  refine ⟨?_, ?_, ?_, ?_⟩
  · intro passes
    have single :
        record.emissions reached.host.context =
          [record.emission reached.host.context] :=
      if_pos passes
    rw [events_eq, closed.received, single, List.flatMap_singleton]
    simp only [← Severity.aborts_iff]
    rfl
  · intro filtered
    have nothing := @Record.close_of_filtered record reached.host filtered
    rw [events_eq, host_eq, nothing]
    refine ⟨rfl, ?_, rfl⟩
    rw [perform, silently, closeRecord_of_some found, nothing]
    rfl
  · rw [host_eq, record.close_context]
  · rw [perform, silently, closeRecord_of_some found, lookup_eq_head?]
    simp only [Outcome.mapState, Outcome.mapValue]
    rw [named_eraseP_self, held]
    rfl

theorem named_openRecord
    (unused : session.records.lookup id = none)
    (record : Record) :
    named id (perform (.openRecord id record) session).state.records =
      [(id, record)] := by
  have records :
      (perform (.openRecord id record) session).state.records =
        session.records ++ [(id, record)] :=
    rfl
  rw [records, named, List.filter_append, ← named, named_eq_nil_of_lookup unused]
  simp

theorem runSteps_openRecord_alike
    {steps : List Step}
    (stays : ∀ step ∈ steps, step.closes id = false)
    (first second : Record) :
    AlikeReports id
      (runSteps session (.openRecord id first :: steps))
      (runSteps session (.openRecord id second :: steps)) := by
  have opened :
      Alike id
        (perform (.openRecord id first) session).state
        (perform (.openRecord id second) session).state :=
    ⟨rfl, rfl,
      (AlikeApart.refl id session.records).append
        ⟨rfl, fun different => absurd rfl different⟩⟩
  have reports := runSteps_alike opened stays
  have alive :
      ∀ record cause,
        (perform (.openRecord id record) session).exit ≠
          .error (.terminated cause) :=
    fun _ _ => nofun
  refine ⟨?_, ?_, ?_⟩
  · rw [events_runSteps_of_alive (alive first),
      events_runSteps_of_alive (alive second), reports.events_eq]
    rfl
  · rw [runSteps_of_alive (alive first), runSteps_of_alive (alive second)]
    exact reports.termination_eq
  · rw [runSteps_of_alive (alive first), runSteps_of_alive (alive second)]
    exact reports.final

/-- What a run makes of a record that it begins with. -/
structure RecordLife
    (session : Session)
    (id file : String)
    (line : UInt32)
    (channel : Channel)
    (severity : Severity)
    (error : Option Int32)
    (steps : List Step) : Prop where
  /-- Any other record in its place would have made no difference before the drop. -/
  unseen :
    ∀ other : Record,
      (runSteps session (.openRecord id other :: steps)).events =
          (runSteps session
            (.openRecord id (.start file line channel severity error) ::
              steps)).events ∧
        (runSteps session (.openRecord id other :: steps)).final.host =
          (runSteps session
            (.openRecord id (.start file line channel severity error) ::
              steps)).final.host
  /-- Steps that work on open records let nobody receive anything of them. -/
  silent :
    ∀ (reached : Session) (name : String) (other : Record)
        (fragments : List String),
      (perform (.openRecord name other) reached).events = [] ∧
        (perform (.append name fragments) reached).events = [] ∧
        (perform (.inspect name) reached).events = []
  /-- Formatting into an open record is received as formatting alone is. -/
  written :
    ∀ (reached : Session) (name : String) (argument : List Piece),
      (perform (.write name argument) reached).events =
        if (reached.records.lookup name).isSome then
          (Argument.write argument reached.host).outcome.events
        else
          []
  /--
  The drop finds header and error as they were given, and what was written
  since.  The description of the error comes last.
  -/
  dropped :
    Dropped id ⟨channel, severity, Text.basename file, line⟩
      (String.join (steps.flatMap (Step.fragmentsTo id)) ++
        error.elim "" fun code => ": " ++ SystemError.describe code)
      (runSteps session
        (.openRecord id (.start file line channel severity error) ::
          steps)).final

/-- Between its beginning and its drop, a record lives as its own steps make it. -/
theorem recordLife_of_outlived
    {file : String}
    {line : UInt32}
    {channel : Channel}
    {severity : Severity}
    {error : Option Int32}
    {steps : List Step}
    (unused : session.records.lookup id = none)
    (reliable : session.host.Reliable)
    (steps_reliable : ReliableSteps steps)
    (undelimited : ∀ step ∈ steps, step.delimits id = false)
    (outlived :
      (runSteps session
          (.openRecord id (.start file line channel severity error) ::
            steps)).termination =
        none) :
    RecordLife session id file line channel severity error steps where
  -- Up to the drop the two runs stay alike apart from the record of this name.
  unseen other := by
    have stays : ∀ step ∈ steps, step.closes id = false := by
      intro step member
      have undelimited := undelimited step member
      cases step <;> first | rfl | exact undelimited
    have reports :=
      @runSteps_openRecord_alike id session steps stays other
        (.start file line channel severity error)
    exact ⟨reports.events_eq, reports.final.host_eq⟩
  silent reached name other fragments := by
    refine ⟨rfl, ?_, rfl⟩
    simp only [perform, append, Operation.modifyGet]
  written reached name argument := by
    simp only [perform, write]
    split
    · next missing =>
        rw [missing]
        rfl
    · next record found =>
        rw [found]
        rfl
  dropped := by
    have alive := alive_of_termination_eq_none outlived
    have opened :=
      named_openRecord unused (.start file line channel severity error)
    rw [runSteps_of_alive alive] at outlived ⊢
    have opened_reliable :
        (perform (.openRecord id (.start file line channel severity error))
          session).state.host.Reliable :=
      reliable
    have held :=
      named_runSteps steps_reliable undelimited opened_reliable opened outlived
    have dropped :=
      dropped_of_named (steps_reliable.runSteps opened_reliable) held
    rw [Record.message_start_append] at dropped
    exact dropped

/-- Two records that are written in turns, while threshold and logger change. -/
def turns : List Step :=
  [.append "r" ["one"],
    .openRecord "q" (.start "src/net.rs" 9 .main .info none),
    .append "q" ["unrelated"],
    .setThreshold .error,
    .closeRecord "q",
    .setLogger (.channel "new" .main true),
    .append "r" ["\n", "two"],
    .setThreshold .warning]

/-- The first of them is received as it was begun and written, where it is dropped. -/
theorem recordLife_of_turns :
    (perform (.closeRecord "r")
          (runSteps
            (start
              (Host.around
                (Context.new (.channel "old" .main true) .terminate "app")))
            (.openRecord "r" (.start "src/db.rs" 7 .system .warning (some 2)) ::
              turns)).final).events.map
        Event.reception =
      [.line (.channel "new" .main true)
          ⟨⟨.system, .warning, "db.rs", 7⟩, "app", "one"⟩,
        .line (.channel "new" .main true)
          ⟨⟨.system, .warning, "db.rs", 7⟩, "app",
            "two: No such file or directory"⟩] := by
  have life :=
    @recordLife_of_outlived "r"
      (start
        (Host.around (Context.new (.channel "old" .main true) .terminate "app")))
      "src/db.rs" 7 .system .warning (some 2) turns
      rfl
      (Host.everywhere_around fun _ => rfl)
      ⟨by simp [turns, Step.isConcurrent],
        by simp [turns, Step.loggers, Logger.Reliable, Logger.fault?]⟩
      (by simp [turns, Step.delimits])
      rfl
  have lines :
      Text.splitLines
          (String.join (turns.flatMap (Step.fragmentsTo "r")) ++
            (some 2).elim "" fun code => ": " ++ SystemError.describe code) =
        ["one", "two: No such file or directory"] := by
    decide
  rw [life.dropped.emitted (by decide), lines]
  rfl

end Session

end GatedLog
