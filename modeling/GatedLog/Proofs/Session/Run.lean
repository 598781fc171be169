import GatedLog.Session.Run

/-!
# Runs, step by step

A run goes on from where its first step left the session, unless that step has
ended the process.  So a property of sessions that every step preserves holds
after every run, and a run can be cut anywhere before the process ends.
-/

namespace GatedLog.Session

variable
    {session : Session}
    {step : Step}
    {rest : List Step}

theorem runSteps_of_alive
    (alive :
      ∀ cause, (perform step session).exit ≠ .error (.terminated cause)) :
    runSteps session (step :: rest) =
      (runSteps (perform step session).state rest).afterAnswer
        ⟨(perform step session).exit,
          (perform step session).events,
          Standing.of (perform step session).state.host.context⟩ := by
  rw [runSteps, List.map_cons, runAll]
  split
  · next cause ended =>
      exact absurd ended (alive cause)
  · rfl

theorem runSteps_of_ended
    {cause : Termination}
    (ended : (perform step session).exit = .error (.terminated cause)) :
    runSteps session (step :: rest) =
      ⟨[], (perform step session).events, some cause,
        (perform step session).state⟩ := by
  simp only [runSteps, List.map_cons, runAll, ended]

/-- Nothing that is received goes without an answer, unless the process ends. -/
theorem lost_runAll_of_alive
    {operations : List (Operation Session Result)}
    (alive : (runAll session operations).terminated = false) :
    (runAll session operations).lost = [] := by
  induction operations generalizing session with
  | nil =>
      rfl
  | cons operation rest induction =>
      rw [runAll] at alive ⊢
      split at alive
      · cases alive
      · next goes =>
          exact induction alive

/-- The events of a run are those of its first step and of the run after it. -/
theorem events_runSteps_of_alive
    (alive :
      ∀ cause, (perform step session).exit ≠ .error (.terminated cause)) :
    (runSteps session (step :: rest)).events =
      (perform step session).events ++
        (runSteps (perform step session).state rest).events := by
  rw [runSteps_of_alive alive]
  simp [Report.events, Report.afterAnswer]

theorem events_runSteps_of_ended
    {cause : Termination}
    (ended : (perform step session).exit = .error (.terminated cause)) :
    (runSteps session (step :: rest)).events =
      (perform step session).events := by
  rw [runSteps_of_ended ended]
  simp [Report.events]

/-- A run of a single step comes to what the step comes to. -/
theorem runSteps_singleton (step : Step) (session : Session) :
    (runSteps session [step]).events = (perform step session).events ∧
      (runSteps session [step]).final = (perform step session).state := by
  by_cases ended : ∃ cause, (perform step session).exit = .error (.terminated cause)
  · rcases ended with ⟨cause, ended⟩
    rw [events_runSteps_of_ended ended, runSteps_of_ended ended]
    exact ⟨rfl, rfl⟩
  · rw [events_runSteps_of_alive (not_exists.mp ended),
      runSteps_of_alive (not_exists.mp ended)]
    exact ⟨List.append_nil _, rfl⟩

/-- A run that the process outlives goes on after each of its steps. -/
theorem alive_of_termination_eq_none
    (outlived : (runSteps session (step :: rest)).termination = none) :
    ∀ cause, (perform step session).exit ≠ .error (.terminated cause) := by
  intro cause ended
  rw [runSteps_of_ended ended] at outlived
  cases outlived

/-- In a run that the process outlives every step has an answer. -/
theorem length_answers_of_outlived
    {steps : List Step}
    (outlived : (runSteps session steps).termination = none) :
    (runSteps session steps).answers.length = steps.length := by
  induction steps generalizing session with
  | nil =>
      rfl
  | cons step rest induction =>
      have alive := alive_of_termination_eq_none outlived
      rw [runSteps_of_alive alive] at outlived ⊢
      rw [Report.afterAnswer, List.length_cons, List.length_cons,
        induction outlived]

/-- What comes after a run that the process outlives goes on where the run stopped. -/
theorem runSteps_append
    {earlier later : List Step}
    (outlived : (runSteps session earlier).termination = none) :
    runSteps session (earlier ++ later) =
      { runSteps (runSteps session earlier).final later with
        answers :=
          (runSteps session earlier).answers ++
            (runSteps (runSteps session earlier).final later).answers } := by
  induction earlier generalizing session with
  | nil =>
      rfl
  | cons step rest induction =>
      have alive := alive_of_termination_eq_none outlived
      rw [runSteps_of_alive alive] at outlived
      rw [List.cons_append, runSteps_of_alive alive, runSteps_of_alive alive,
        induction outlived]
      rfl

/-- So does what is closed in the end: a whole session can be cut anywhere before its end. -/
theorem run_append
    {earlier later : List Step}
    (outlived : (runSteps session earlier).termination = none) :
    run session (earlier ++ later) =
      { run (runSteps session earlier).final later with
        answers :=
          (runSteps session earlier).answers ++
            (run (runSteps session earlier).final later).answers } := by
  simp only [run, runSteps_append outlived, Report.terminated]
  split
  · next ended =>
      simp only [ended, if_true]
  · next goes =>
      simp only [goes, if_false, List.append_assoc, Bool.false_eq_true]

/-- A whole session goes on where its first step left it. -/
theorem run_of_alive
    (alive :
      ∀ cause, (perform step session).exit ≠ .error (.terminated cause)) :
    run session (step :: rest) =
      (run (perform step session).state rest).afterAnswer
        ⟨(perform step session).exit,
          (perform step session).events,
          Standing.of (perform step session).state.host.context⟩ := by
  simp only [run, runSteps_of_alive alive, Report.terminated,
    Report.afterAnswer]
  split
  · next ended =>
      simp only [ended, if_true]
  · next goes =>
      simp only [goes, if_false, List.cons_append, Bool.false_eq_true]

/-- A process that outlives a run outlives each part that the run begins with. -/
theorem termination_eq_none_of_append
    {earlier later : List Step}
    (outlived : (runSteps session (earlier ++ later)).termination = none) :
    (runSteps session earlier).termination = none := by
  induction earlier generalizing session with
  | nil =>
      rfl
  | cons step rest induction =>
      have alive := alive_of_termination_eq_none outlived
      rw [List.cons_append, runSteps_of_alive alive] at outlived
      rw [runSteps_of_alive alive]
      exact induction outlived

/-- What every step preserves holds after every run. -/
theorem runSteps_invariant
    {Invariant : Session → Prop}
    {steps : List Step}
    (initial : Invariant session)
    (preserved :
      ∀ session, ∀ step ∈ steps,
        Invariant session → Invariant (perform step session).state) :
    Invariant (runSteps session steps).final := by
  induction steps generalizing session with
  | nil =>
      exact initial
  | cons step rest induction =>
      have next : Invariant (perform step session).state :=
        preserved session step List.mem_cons_self initial
      by_cases ended :
          ∃ cause, (perform step session).exit = .error (.terminated cause)
      · rcases ended with ⟨cause, ended⟩
        rw [runSteps_of_ended ended]
        exact next
      · rw [runSteps_of_alive (not_exists.mp ended)]
        exact induction next fun session step member =>
          preserved session step (List.mem_cons_of_mem _ member)

end GatedLog.Session
