import GatedLog.Proofs.Host
import GatedLog.Proofs.Session.Run

/-!
# Scopes restore the threshold

A scope keeps the threshold that it found when it was opened, and installs it
again when it is closed.  Scopes that are closed in the reverse order in which
they were opened are found on top of all older ones, so what a scope restores
is the threshold that the caller had before, however the threshold was moved in
the meantime and however the steps in between were left.
-/

namespace GatedLog.Session

/-- Whether a step opens or closes a scope. -/
def Step.isScoping : Step → Bool
  | .openScope _ _ => true
  | .closeScope _ => true
  | _ => false

/--
Whether steps close the scopes that they open, and no others, the last one that
was opened first.  The names are those of scopes still to be closed, newest
first.
-/
def bracketed : List String → List Step → Bool
  | names, [] => names.isEmpty
  | names, .openScope id _ :: rest => bracketed (id :: names) rest
  | [], .closeScope _ :: _ => false
  | name :: names, .closeScope id :: rest => name == id && bracketed names rest
  | names, _ :: rest => bracketed names rest

theorem bracketed_of_not_scoping
    {step : Step}
    (apart : step.isScoping = false)
    (names : List String)
    (rest : List Step) :
    bracketed names (step :: rest) = bracketed names rest := by
  cases step with
  | openScope id severity =>
      cases apart
  | closeScope id =>
      cases apart
  | _ =>
      simp only [bracketed]

variable {session : Session}

/-- No other step has a part in the thresholds that open scopes keep. -/
theorem scopes_perform
    {step : Step}
    (apart : step.isScoping = false) :
    (perform step session).state.scopes = session.scopes := by
  cases step with
  | openScope id severity =>
      cases apart
  | closeScope id =>
      cases apart
  | append id fragments =>
      simp only [perform, append, Operation.modifyGet]
      split <;> rfl
  | write id argument =>
      simp only [perform, write]
      split <;> rfl
  | closeRecord id =>
      simp only [perform, silently, closeRecord]
      split <;> rfl
  | _ =>
      rfl

/-- The newest scope of a name is the one that is closed under that name. -/
theorem perform_closeScope_of_newest
    {id : String}
    {previous : Severity}
    {older : List (String × Severity)}
    (newest : session.scopes = (id, previous) :: older) :
    (perform (.closeScope id) session).state =
      { session with
        host :=
          session.host.withContext (session.host.context.withMinimum previous)
        scopes := older } := by
  have found : session.scopes.lookup id = some previous := by
    simp [newest]
  have closed : (session.scopes.eraseP fun scope => scope.1 == id) = older := by
    simp [newest]
  rw [perform, silently, closeScope_of_some found, closed]
  rfl

/-- Steps that close what they open leave all older scopes as they were. -/
theorem scopes_runSteps_of_bracketed
    {steps : List Step}
    {own older : List (String × Severity)}
    (held : session.scopes = own ++ older)
    (balanced : bracketed (own.map Prod.fst) steps = true)
    (outlived : (runSteps session steps).termination = none) :
    (runSteps session steps).final.scopes = older := by
  induction steps generalizing session own with
  | nil =>
      have closed : own = [] := by
        simpa [bracketed] using balanced
      rw [closed] at held
      exact held
  | cons step rest induction =>
      have alive := alive_of_termination_eq_none outlived
      rw [runSteps_of_alive alive] at outlived ⊢
      cases scoping : step.isScoping with
      | false =>
          rw [bracketed_of_not_scoping scoping] at balanced
          exact induction ((scopes_perform scoping).trans held) balanced outlived
      | true =>
          cases step with
          | openScope id severity =>
              have opened :
                  (perform (.openScope id severity) session).state.scopes =
                    ((id, session.host.context.minimum) :: own) ++ older := by
                rw [List.cons_append, ← held]
                rfl
              exact induction opened balanced outlived
          | closeScope id =>
              -- A scope to be closed has to be the newest of the steps' own.
              cases own with
              | nil =>
                  cases balanced
              | cons newest own =>
                  rcases newest with ⟨name, previous⟩
                  rcases Bool.and_eq_true_iff.mp balanced with ⟨named, later⟩
                  have same : name = id := beq_iff_eq.mp named
                  subst same
                  have closed := perform_closeScope_of_newest held
                  exact induction (congrArg scopes closed) later outlived
          | _ =>
              cases scoping

/-- What a scope leaves of the steps that it was opened for. -/
structure ScopeRestored
    (session : Session)
    (id : String)
    (severity : Severity)
    (body : List Step) : Prop where
  /-- The body starts from the threshold of the scope. -/
  entered :
    (perform (.openScope id severity) session).state.host.context.minimum =
      severity
  /-- The threshold is again what it was. -/
  minimum_eq :
    (runSteps session
        (.openScope id severity :: body ++ [.closeScope id])).final.host.context.minimum =
      session.host.context.minimum
  /-- The older scopes will restore what they would have restored before. -/
  scopes_eq :
    (runSteps session
        (.openScope id severity :: body ++ [.closeScope id])).final.scopes =
      session.scopes
  /-- Nothing but the threshold is taken back of what the body has done. -/
  host_eq :
    (runSteps session
        (.openScope id severity :: body ++ [.closeScope id])).final.host =
      let reached := (runSteps session (.openScope id severity :: body)).final.host
      reached.withContext
        (reached.context.withMinimum session.host.context.minimum)

/-- A scope restores the threshold, whatever is done before it is closed. -/
theorem scopeRestored_of_bracketed
    {id : String}
    {severity : Severity}
    {body : List Step}
    (balanced : bracketed [] body = true)
    (outlived :
      (runSteps session
          (.openScope id severity :: body ++ [.closeScope id])).termination =
        none) :
    ScopeRestored session id severity body := by
  have body_outlived := termination_eq_none_of_append outlived
  have alive := alive_of_termination_eq_none body_outlived
  have reached_scopes :
      (runSteps session (.openScope id severity :: body)).final.scopes =
        (id, session.host.context.minimum) :: session.scopes := by
    rw [runSteps_of_alive alive] at body_outlived ⊢
    refine
      @scopes_runSteps_of_bracketed _ body []
        ((id, session.host.context.minimum) :: session.scopes)
        rfl balanced body_outlived
  have closed :
      (runSteps session
          (.openScope id severity :: body ++ [.closeScope id])).final =
        (perform (.closeScope id)
          (runSteps session (.openScope id severity :: body)).final).state := by
    rw [runSteps_append body_outlived] at outlived ⊢
    rw [runSteps_of_alive (alive_of_termination_eq_none outlived)]
    rfl
  rw [perform_closeScope_of_newest reached_scopes] at closed
  refine ⟨?_, ?_, ?_, ?_⟩
  · exact session.host.context.minimum_withMinimum severity
  · rw [closed]
    exact Context.minimum_withMinimum _ _
  · rw [closed]
  · rw [closed]

/--
A body with an abort that is caught, a nested scope of the same name, and a
first initialization that takes its tags.
-/
def disturbances : List Step :=
  [.setThreshold .error,
    .openScope "s" .fatal,
    .emit ⟨.system, .fatal, "a.rs", 1⟩ "lost",
    .setThreshold .info,
    .closeScope "s",
    .setUp
      ⟨none, .ok (some "*:w *:v"), .channel "new" .main true,
        .unwind "new" none⟩,
    .record (.start "b.rs" 2 .main .error none)
      [.threshold .debug, .panic "cut short"]]

/-- After all of that the threshold is the one before the outer scope. -/
theorem scopeRestored_of_disturbances :
    (runSteps
        (start
          (Host.around
            (Context.new (.channel "old" .main true) (.unwind "old" none) "app")))
        (.openScope "s" .verbose :: disturbances ++
          [.closeScope "s"])).final.host.context.minimum =
      .info :=
  (@scopeRestored_of_bracketed
    (start
      (Host.around
        (Context.new (.channel "old" .main true) (.unwind "old" none) "app")))
    "s" .verbose disturbances rfl (by decide)).minimum_eq

end GatedLog.Session
