import GatedLog.Proofs.Session.Run

/-!
# What is closed when the steps are over

Records and scopes that were left open are closed at the end of a session just
as they would have been by steps of their own.  So up to the answers to these
closings a whole session is a run of steps, and what holds of every run of
steps holds of whole sessions.
-/

namespace GatedLog.Session

/-- Reports that differ at most in what the steps have returned. -/
structure Report.Agrees (first second : Report) : Prop where
  events_eq : first.events = second.events
  answered_eq : first.answers.length = second.answers.length
  termination_eq : first.termination = second.termination
  final_eq : first.final = second.final

/-- The steps that would close what is open in a session. -/
def closings (session : Session) : List Step :=
  session.records.map (fun entry => .closeRecord entry.1) ++
    session.scopes.map (fun scope => .closeScope scope.1)

/-- The steps of a session, and those that would close what they leave open. -/
def stepsToEnd (session : Session) (steps : List Step) : List Step :=
  steps ++ closings (runSteps session steps).final

variable
    {session : Session}
    {steps earlier : List Step}

/-- What is left open is closed by steps that close records or scopes. -/
theorem eq_of_mem_closings
    {step : Step}
    (member : step ∈ closings session) :
    (∃ id, step = .closeRecord id) ∨ ∃ id, step = .closeScope id := by
  rcases List.mem_append.mp member with record | scope
  · rcases List.mem_map.mp record with ⟨entry, _, rfl⟩
    exact Or.inl ⟨entry.1, rfl⟩
  · rcases List.mem_map.mp scope with ⟨entry, _, rfl⟩
    exact Or.inr ⟨entry.1, rfl⟩

/-- It makes no difference to a run that a closing is answered with a name. -/
theorem runAll_endOf_agrees
    (works : List (String × Operation Session Unit))
    (session : Session) :
    (runAll session (works.map fun work => endOf work.1 work.2)).Agrees
      (runAll session (works.map fun work => silently work.2)) := by
  induction works generalizing session with
  | nil =>
      exact ⟨rfl, rfl, rfl, rfl⟩
  | cons work rest induction =>
      have next := induction (work.2 session).state
      have goes_on :
          ∀ answer other : Answer,
            answer.events = other.events →
              ((runAll (work.2 session).state
                    (rest.map fun work => endOf work.1 work.2)).afterAnswer
                  answer).Agrees
                ((runAll (work.2 session).state
                    (rest.map fun work => silently work.2)).afterAnswer
                  other) := by
        intro answer other same
        refine ⟨?_, ?_, next.termination_eq, next.final_eq⟩
        · have later := next.events_eq
          simp only [Report.events, Report.afterAnswer, List.flatMap_cons,
            List.append_assoc] at later ⊢
          rw [same, later]
        · have later := next.answered_eq
          simp only [Report.afterAnswer, List.length_cons, later]
      simp only [List.map_cons, runAll, endOf, silently, Outcome.mapValue]
      cases exit : (work.2 session).exit with
      | ok value =>
          exact goes_on _ _ rfl
      | error departure =>
          cases departure with
          | terminated cause =>
              exact ⟨rfl, rfl, rfl, rfl⟩
          | aborted message =>
              exact goes_on _ _ rfl
          | panicked message =>
              exact goes_on _ _ rfl

theorem runAll_leftovers_agrees (session reached : Session) :
    (runAll session (leftovers reached)).Agrees
      (runSteps session (closings reached)) := by
  have agrees :=
    runAll_endOf_agrees
      (reached.records.map (fun entry => (entry.1, closeRecord entry.1)) ++
        reached.scopes.map fun scope => (scope.1, closeScope scope.1))
      session
  simp only [List.map_append, List.map_map, Function.comp_def] at agrees
  simp only [leftovers, runSteps, closings, List.map_append, List.map_map,
    Function.comp_def]
  exact agrees

/-- Once the process has ended nothing that was to follow takes place. -/
theorem runSteps_append_of_terminated
    {cause : Termination}
    (ended : (runSteps session earlier).termination = some cause)
    (later : List Step) :
    runSteps session (earlier ++ later) = runSteps session earlier := by
  induction earlier generalizing session with
  | nil =>
      cases ended
  | cons step rest induction =>
      by_cases ends :
          ∃ cause, (perform step session).exit = .error (.terminated cause)
      · rcases ends with ⟨cause, ends⟩
        rw [List.cons_append, runSteps_of_ended ends, runSteps_of_ended ends]
      · have alive := not_exists.mp ends
        rw [runSteps_of_alive alive] at ended
        rw [List.cons_append, runSteps_of_alive alive, runSteps_of_alive alive,
          induction ended]

/-- A whole session is a run of steps, with the closings as the last of them. -/
theorem run_agrees (session : Session) (steps : List Step) :
    (run session steps).Agrees
      (runSteps session (stepsToEnd session steps)) := by
  simp only [stepsToEnd]
  cases ended : (runSteps session steps).termination with
  | some cause =>
      have terminated : (runSteps session steps).terminated = true := by
        simp [Report.terminated, ended]
      rw [runSteps_append_of_terminated ended, run, if_pos terminated]
      exact ⟨rfl, rfl, rfl, rfl⟩
  | none =>
      have goes : (runSteps session steps).terminated = false := by
        simp [Report.terminated, ended]
      have agrees :=
        runAll_leftovers_agrees
          (runSteps session steps).final (runSteps session steps).final
      rw [runSteps_append ended, run, if_neg (ne_true_of_eq_false goes)]
      refine ⟨?_, ?_, agrees.termination_eq, agrees.final_eq⟩
      · have later := agrees.events_eq
        simp only [Report.events, List.flatMap_append, List.append_assoc]
          at later ⊢
        rw [later]
      · have later := agrees.answered_eq
        simp only [List.length_append, later]

end GatedLog.Session
