import GatedLog.Proofs.Concurrency.Lock
import GatedLog.Proofs.Session.Effects
import GatedLog.Proofs.Text.Lines

/-!
# The law of aborts

The emissions of a run determine what loggers and aborters receive in it.  Each
emission of the highest severity is followed by one call of an aborter, and no
other emission is.  It is the aborter that was active when the lines were
dispatched, it is called after the last of them, with the message that they
come to when they are joined, and the lock has been released before.  When the
call has left for its caller, the context is what it was before the emission.
-/

namespace GatedLog

namespace Emission

/-- The texts of the lines of an emission, in order. -/
def texts (emission : Emission) : List String :=
  emission.lines.filterMap fun reception =>
    match reception with
    | .line _ line => some line.message
    | .abort _ _ => none

theorem texts_eq_splitLines (emission : Emission) :
    emission.texts = Text.splitLines emission.message := by
  rw [texts, lines, List.filterMap_map]
  exact List.filterMap_some

theorem aborted?_lines (emission : Emission) :
    emission.lines.filterMap Reception.aborted? = [] := by
  simp [lines, List.filterMap_map, Function.comp_def, Reception.aborted?]

/-- An announcement consists of lines only. -/
theorem aborted?_announced (context : Context) (aborter : Aborter) :
    (aborter.announced context).filterMap Reception.aborted? = [] := by
  unfold Aborter.announced
  split
  · next announcement =>
      rw [List.filterMap_flatMap]
      simp [aborted?_lines]
  · rfl

/-- An emission comes with at most one call of an aborter, its own. -/
theorem aborted?_receptions (emission : Emission) :
    emission.receptions.filterMap Reception.aborted? =
      if emission.aborts then
        [(emission.context.aborter, emission.message)]
      else
        [] := by
  unfold receptions aborts
  rw [List.filterMap_append, aborted?_lines]
  split
  · simp [List.filterMap_append, aborted?_announced, Reception.aborted?]
  · rfl

/-- Emissions come with the calls of those among them that abort. -/
theorem aborted?_flatMap_receptions (emissions : List Emission) :
    (emissions.flatMap receptions).filterMap Reception.aborted? =
      (emissions.filter aborts).map fun emission =>
        (emission.context.aborter, emission.message) := by
  induction emissions with
  | nil =>
      rfl
  | cons emission rest induction =>
      rw [List.flatMap_cons, List.filterMap_append, induction,
        aborted?_receptions, List.filter_cons]
      split <;> rfl

end Emission

namespace Session

/-- The emissions of a run, in order, up to the end of the process. -/
def emissions (session : Session) : List Step → List Emission
  | [] => []
  | step :: rest =>
      step.emissions session ++
        match (perform step session).exit with
        | .error (.terminated _) => []
        | _ => emissions (perform step session).state rest

/-- Steps of one thread that install reliable loggers and unwinding aborters. -/
structure Behaved (steps : List Step) : Prop extends ReliableSteps steps where
  aborters : ∀ step ∈ steps, ∀ aborter ∈ step.aborters, aborter.Unwinds

theorem Behaved.tail
    {step : Step}
    {rest : List Step}
    (behaved : Behaved (step :: rest)) :
    Behaved rest where
  toReliableSteps :=
    behaved.toReliableSteps.of_subset (List.subset_cons_self step rest)
  aborters _ member := behaved.aborters _ (List.mem_cons_of_mem _ member)

/-- What is received in a run are the receptions of its emissions. -/
theorem events_runSteps
    {session : Session}
    {steps : List Step}
    (behaved : Behaved steps)
    (reliable : session.host.Reliable)
    (unwinds : session.host.Unwinds) :
    (runSteps session steps).events.map Event.reception =
      (session.emissions steps).flatMap Emission.receptions := by
  induction steps generalizing session with
  | nil =>
      rfl
  | cons step rest induction =>
      have accounts :=
        behaved.toReliableSteps.accounts List.mem_cons_self reliable
      rw [emissions, List.flatMap_append, ← accounts.received unwinds]
      split
      · next cause ended =>
          rw [events_runSteps_of_ended ended]
          simp
      · next alive =>
          have next :=
            induction behaved.tail
              (accounts.reliable reliable
                (behaved.loggers _ List.mem_cons_self))
              (accounts.unwinds unwinds
                (behaved.aborters _ List.mem_cons_self))
          rw [events_runSteps_of_alive alive, List.map_append, next]

/-- What a run has to do with aborters. -/
structure AbortLaw (session : Session) (steps : List Step) : Prop where
  /--
  An aborter is called once for each emission of the highest severity, and for
  no other.  It is the one of the context that the emission was dispatched in.
  -/
  matched :
    (runSteps session steps).events.filterMap Event.aborted? =
      ((session.emissions steps).filter fun emission =>
          emission.header.severity == .fatal).map fun emission =>
        (emission.context.aborter, emission.message)
  /--
  The call comes after the lines of its emission, and between them there is at
  most the announcement, filtered and dispatched like any record.
  -/
  ordered :
    (runSteps session steps).events.map Event.reception =
      (session.emissions steps).flatMap fun emission =>
        emission.lines ++
          if emission.header.severity = .fatal then
            emission.context.aborter.announced emission.context ++
              [.abort emission.context.aborter emission.message]
          else
            []
  /-- The message of the call is what the lines come to when they are joined. -/
  whole :
    ∀ emission ∈ session.emissions steps,
      Text.joinLines emission.texts = emission.message
  /-- No threshold keeps a record of the highest severity from its emission. -/
  unfiltered :
    ∀ (record : Record) (context : Context),
      record.severity = .fatal →
        record.emissions context = [record.emission context]
  /-- However an emission is left, the context is what it was before. -/
  restored :
    ∀ (header : Header) (message : String) (host : Host),
      (GatedLog.emit header message host).state.context = host.context
  /-- So a step leaves the context that it asks for, whatever it emits. -/
  moved :
    ∀ (earlier : List Step) (step : Step) (later : List Step),
      steps = earlier ++ step :: later →
        (perform step (runSteps session earlier).final).state.host.context =
          step.contextAfter (runSteps session earlier).final
  /--
  Where threads share the context, a dispatch keeps the logger and the aborter
  that it found under the lock, whatever step any thread takes meanwhile.
  -/
  held :
    ∀ (host : Host) (calls : List (List Concurrency.Call)) (schedule : List Nat)
        (index other : Nat) (thread : Concurrency.Thread)
        (delivery : Concurrency.Delivery) (remaining : List String),
      ((Concurrency.Machine.start host calls).run schedule).threads[index]? =
          some thread →
        thread.activity = .dispatching delivery remaining →
          (((Concurrency.Machine.start host calls).run schedule).step
              other).host.context =
            ((Concurrency.Machine.start host calls).run schedule).host.context
  /-- And whoever calls an aborter there has released the lock. -/
  released :
    ∀ (host : Host) (calls : List (List Concurrency.Call)) (schedule : List Nat)
        (index : Nat) (thread : Concurrency.Thread),
      ((Concurrency.Machine.start host calls).run schedule).threads[index]? =
          some thread →
        thread.activity.callsAborter = true →
          ((Concurrency.Machine.start host calls).run schedule).holder ≠
            some index

/-- Every run with reliable loggers and unwinding aborters obeys the law. -/
theorem abortLaw_of_behaved
    {session : Session}
    {steps : List Step}
    (behaved : Behaved steps)
    (reliable : session.host.Reliable)
    (unwinds : session.host.Unwinds) :
    AbortLaw session steps where
  matched := by
    have highest :
        Emission.aborts =
          fun emission : Emission => emission.header.severity == .fatal := by
      funext emission
      rw [Bool.eq_iff_iff, Emission.aborts, Severity.aborts_iff, beq_iff_eq]
    have calls :
        (runSteps session steps).events.filterMap Event.aborted? =
          ((runSteps session steps).events.map Event.reception).filterMap
            Reception.aborted? := by
      rw [List.filterMap_map, Event.aborted?_comp_reception]
    rw [calls, events_runSteps behaved reliable unwinds,
      Emission.aborted?_flatMap_receptions, highest]
  ordered := by
    rw [events_runSteps behaved reliable unwinds]
    simp only [← Severity.aborts_iff]
    rfl
  whole emission _ := by
    rw [emission.texts_eq_splitLines, Text.joinLines_splitLines]
  unfiltered record context highest :=
    if_pos (context.shouldEmit_of_isFatal (highest ▸ rfl))
  restored := emit_context
  moved earlier step later equality := by
    subst equality
    have member : step ∈ earlier ++ step :: later := by simp
    have earlier_reliable : ReliableSteps earlier :=
      behaved.toReliableSteps.of_subset (List.subset_append_left _ _)
    have accounts :=
      behaved.toReliableSteps.accounts member
        (earlier_reliable.runSteps reliable)
    exact accounts.context_eq
  held host calls schedule index other thread delivery remaining member
      dispatching :=
    (Concurrency.Machine.lockKept_run host calls schedule).context_step
      member dispatching other
  released host calls schedule index thread member calling :=
    (Concurrency.Machine.lockKept_run host calls schedule).released
      member calling

/-- The threshold stands at the top, and the aborter announces itself. -/
theorem abortLaw_of_announced_abort :
    AbortLaw
      (start
        (Host.around
          (Context.new
            (.channel "main" .main true)
            (.unwind "main"
              (some
                ⟨(Record.start "src/abort.rs" 3 .system .fatalWithoutAbort
                    none).append "going down", rfl⟩))
            "app")))
      [.setThreshold .fatal,
        .openRecord "r" (Record.start "src/db.rs" 7 .unspecified .fatal none),
        .append "r" ["bad state", "\nat step 2"],
        .closeRecord "r"] :=
  abortLaw_of_behaved
    ⟨⟨by simp [Step.isConcurrent], by simp [Step.loggers]⟩,
      by simp [Step.aborters]⟩
    (Host.everywhere_around fun _ => rfl)
    (Host.everywhere_around nofun)

end Session

end GatedLog
