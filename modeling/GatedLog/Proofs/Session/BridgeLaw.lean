import GatedLog.Proofs.Bridge
import GatedLog.Proofs.Host
import GatedLog.Proofs.Session.Trail

/-!
# The law of the bridge

In a run the bridge is installed once, by the first step that asks for it.
Messages before that step leave no trace, and messages after it might as well
have been log statements: the run in which they are is the same run, answer by
answer, to its very end.
-/

namespace GatedLog.Session

open Bridge

namespace Step

/-- Whether a step asks for the installation of the bridge. -/
def installs : Step → Bool
  | .installBridge => true
  | _ => false

/-- Whether a step logs a message over the bridge. -/
def isMessage : Step → Bool
  | .bridgeMessage _ _ => true
  | _ => false

/--
A step without the bridge: a message that would go over it becomes the
statement that it amounts to, with the number of the last error as it is.
-/
def direct (session : Session) (step : Step) : Step :=
  match step with
  | .bridgeMessage message argument =>
      if session.host.bridged then
        .statement message.statement session.host.errno argument
      else
        .bridgeMessage message argument
  | other => other

end Step

/-- The steps of a run, each without the bridge from where it starts. -/
def directly (session : Session) : List Step → List Step
  | [] => []
  | step :: rest =>
      step.direct session :: directly (perform step session).state rest

/-- What an interface is left in after the installations that some steps ask for. -/
def interfaceAfter
    (facade : Facade)
    (state : facade.State)
    (steps : List Step) :
    facade.State :=
  (steps.filter Step.installs).foldl (fun state _ => (facade.install state).2)
    state

variable {session : Session}

/-! ## One step -/

theorem perform_bridgeMessage_of_not_bridged
    (apart : session.host.bridged = false)
    (message : Message)
    (argument : List Piece) :
    perform (.bridgeMessage message argument) session =
      ⟨.ok (.formatted false), session, []⟩ := by
  apply perform_bridgeMessage_of_disabled
  rw [enabled, apart, Bool.false_and]

/-- A step without the bridge does what it does with it. -/
theorem perform_direct (step : Step) (session : Session) :
    perform (step.direct session) session = perform step session := by
  cases step with
  | bridgeMessage message argument =>
      simp only [Step.direct]
      split
      · next bridged =>
          rw [perform_statement, ← message.run_of_bridged bridged]
          rfl
      · rfl
  | _ =>
      rfl

/-- The bridge is in place after a step that asks for it, or if it was before. -/
theorem bridged_perform (step : Step) (session : Session) :
    (perform step session).state.host.bridged =
      (session.host.bridged || step.installs) := by
  cases installing : step.installs with
  | true =>
      have step_eq : step = .installBridge := by
        cases step <;> first | rfl | cases installing
      subst step_eq
      cases bridged : session.host.bridged with
      | true =>
          rw [perform_installBridge_of_bridged bridged]
          exact bridged
      | false =>
          rw [perform_installBridge_of_not_bridged bridged]
          rfl
  | false =>
      have elsewhere : step ≠ .installBridge := by
        rintro rfl
        cases installing
      have unmoved :=
        trail.perform (fun _ _ => trivial) (fun same => absurd same elsewhere)
          session
      rw [Bool.or_false]
      exact unmoved

theorem isMessage_direct
    (bridged : session.host.bridged = true)
    (step : Step) :
    (step.direct session).isMessage = false := by
  cases step with
  | bridgeMessage message argument =>
      simp only [Step.direct, bridged, if_true]
      rfl
  | _ =>
      rfl

/-! ## Runs -/

/-- The bridge is in place after a run with a step that asks for it. -/
theorem bridged_runSteps
    {steps : List Step}
    (outlived : (runSteps session steps).termination = none) :
    (runSteps session steps).final.host.bridged =
      (session.host.bridged || steps.any Step.installs) := by
  induction steps generalizing session with
  | nil =>
      exact (Bool.or_false _).symm
  | cons step rest induction =>
      have alive := alive_of_termination_eq_none outlived
      rw [runSteps_of_alive alive] at outlived ⊢
      have later := induction outlived
      rw [bridged_perform, Bool.or_assoc] at later
      exact later

theorem runSteps_directly (session : Session) (steps : List Step) :
    runSteps session (session.directly steps) = runSteps session steps := by
  induction steps generalizing session with
  | nil =>
      rfl
  | cons step rest induction =>
      have same := perform_direct step session
      by_cases ended :
          ∃ cause, (perform step session).exit = .error (.terminated cause)
      · rcases ended with ⟨cause, ended⟩
        rw [directly, runSteps_of_ended ended,
          runSteps_of_ended (same.symm ▸ ended), same]
      · have alive := not_exists.mp ended
        rw [directly, runSteps_of_alive alive,
          runSteps_of_alive (same.symm ▸ alive), same, induction]

theorem run_directly (session : Session) (steps : List Step) :
    run session (session.directly steps) = run session steps := by
  simp only [run, runSteps_directly]

/-- Where the bridge is in place, nothing goes over it any more. -/
theorem not_isMessage_of_directly
    {steps : List Step}
    (bridged : session.host.bridged = true) :
    ∀ step ∈ session.directly steps, step.isMessage = false := by
  induction steps generalizing session with
  | nil =>
      exact fun step member => (List.not_mem_nil member).elim
  | cons step rest induction =>
      have still : (perform step session).state.host.bridged = true := by
        rw [bridged_perform, bridged, Bool.true_or]
      exact
        List.forall_mem_cons.mpr
          ⟨isMessage_direct bridged step, induction still⟩

/-- An interface goes through a run as the bridge does. -/
theorem mirrors_runSteps
    {facade : Facade}
    {fresh state : facade.State}
    {steps : List Step}
    (documented : facade.Documented fresh)
    (mirrors : Facade.Mirrors fresh state session.host.bridged)
    (outlived : (runSteps session steps).termination = none) :
    Facade.Mirrors fresh (interfaceAfter facade state steps)
      (runSteps session steps).final.host.bridged := by
  induction steps generalizing session state with
  | nil =>
      exact mirrors
  | cons step rest induction =>
      have alive := alive_of_termination_eq_none outlived
      rw [runSteps_of_alive alive] at outlived ⊢
      cases installing : step.installs with
      | false =>
          have unmoved :
              (perform step session).state.host.bridged =
                session.host.bridged := by
            rw [bridged_perform, installing, Bool.or_false]
          rw [interfaceAfter,
            List.filter_cons_of_neg (Bool.not_eq_true _ ▸ installing)]
          exact induction (unmoved.symm ▸ mirrors) outlived
      | true =>
          have step_eq : step = .installBridge := by
            cases step <;> first | rfl | cases installing
          subst step_eq
          exact induction (documented.install_eq mirrors).2 outlived

/-! ## The law -/

/-- What the bridge comes to in a session. -/
structure BridgeLaw (session : Session) : Prop where
  /--
  Over a bridge that is in place a message does what its statement does: the
  same events, the same state, the same exit, the same answer.
  -/
  open_eq :
    ∀ (host : Host) (message : Message) (argument : List Piece),
      host.bridged = true →
        message.run argument host = message.statement.run argument host
  /-- The record of a message, which is that of its statement. -/
  record_eq :
    ∀ (message : Message) (errno : Int32),
      message.record = message.statement.record errno ∧
        message.record.toHeader =
          ⟨.unspecified, message.level.severity,
            (message.file.map Text.basename).getD "<unknown>",
            message.line.getD 0⟩
  /-- Before the bridge is in place nothing comes of a message, whatever its argument. -/
  closed_eq :
    ∀ (host : Host) (message : Message) (argument : List Piece),
      host.bridged = false →
        message.run argument host = Operation.done false host
  /-- In a run the bridge is in place from the first step on that asks for it. -/
  bridged_eq :
    ∀ earlier : List Step,
      (runSteps session earlier).termination = none →
        (runSteps session earlier).final.host.bridged =
          (session.host.bridged || earlier.any Step.installs)
  /-- The first step that asks for the bridge gets it. -/
  first_install :
    ∀ earlier : List Step,
      (runSteps session earlier).termination = none →
        session.host.bridged = false →
          earlier.any Step.installs = false →
            perform .installBridge (runSteps session earlier).final =
              ⟨.ok (.installation (.ok .trace)),
                (runSteps session earlier).final.withHost
                  { (runSteps session earlier).final.host with
                    bridged := true },
                []⟩
  /-- Every later one is told so, and changes nothing. -/
  later_install :
    ∀ earlier : List Step,
      (runSteps session earlier).termination = none →
        earlier.any Step.installs = true →
          perform .installBridge (runSteps session earlier).final =
            ⟨.ok (.installation (.error .alreadyInstalled)),
              (runSteps session earlier).final, []⟩
  /-- A message before the first of these steps leaves the session as it is. -/
  early_message :
    ∀ (earlier : List Step) (message : Message) (argument : List Piece),
      (runSteps session earlier).termination = none →
        session.host.bridged = false →
          earlier.any Step.installs = false →
            perform (.bridgeMessage message argument)
                (runSteps session earlier).final =
              ⟨.ok (.formatted false), (runSteps session earlier).final, []⟩
  /-- A run is the same with statements in place of the messages of a bridge in place. -/
  run_eq :
    ∀ steps : List Step,
      run session (session.directly steps) = run session steps
  /-- If it is in place from the start, these are all messages. -/
  no_message :
    ∀ steps : List Step,
      session.host.bridged = true →
        ∀ step ∈ session.directly steps, step.isMessage = false
  /--
  All of this holds with any interface that is as documented: throughout the run
  it passes records on if the bridge is in place, and refuses or takes the
  bridge as the step does.
  -/
  interface :
    ∀ (facade : Facade) (fresh state : facade.State) (earlier : List Step),
      facade.Documented fresh →
        Facade.Mirrors fresh state session.host.bridged →
          (runSteps session earlier).termination = none →
            (∀ level : Level,
              facade.passes (interfaceAfter facade state earlier) level =
                (runSteps session earlier).final.host.bridged) ∧
              (perform .installBridge (runSteps session earlier).final).exit =
                .ok
                  (.installation
                    (facade.install (interfaceAfter facade state earlier)).1)

/-- Every session obeys the law, installed or not when it starts. -/
theorem bridgeLaw (session : Session) : BridgeLaw session where
  open_eq _ message argument bridged := message.run_of_bridged bridged argument
  record_eq message errno :=
    ⟨message.record_eq errno, message.record_toHeader⟩
  closed_eq _ message argument apart :=
    message.run_of_not_bridged apart argument
  bridged_eq _ outlived := bridged_runSteps outlived
  first_install _ outlived apart none_yet := by
    apply perform_installBridge_of_not_bridged
    rw [bridged_runSteps outlived, apart, none_yet]
    rfl
  later_install _ outlived asked := by
    apply perform_installBridge_of_bridged
    rw [bridged_runSteps outlived, asked, Bool.or_true]
  early_message _ message argument outlived apart none_yet := by
    apply perform_bridgeMessage_of_not_bridged
    rw [bridged_runSteps outlived, apart, none_yet]
    rfl
  run_eq := run_directly session
  no_message _ bridged := not_isMessage_of_directly bridged
  interface facade fresh state earlier documented mirrors outlived := by
    have reached := mirrors_runSteps documented mirrors outlived
    refine ⟨documented.passes_eq reached, ?_⟩
    have same := (documented.install_eq reached).1
    simp only [perform, onHost, Outcome.mapState, Outcome.mapValue, same]
    rfl

/-- A session in which the bridge is not in place. -/
def unbridged : Session :=
  start
    (Host.around (Context.new (.channel "main" .main true) .terminate "app"))

/-- A message that comes too early to panic, and the installation of the bridge. -/
def lateInstall : List Step :=
  [.bridgeMessage ⟨.error, none, none⟩ [.panic "never seen"],
    .installBridge]

/--
After that a message is a statement.  An interface that a logger was put behind
with the bridge passes everything on, and a second installation is refused.
-/
theorem bridgeLaw_of_late_install :
    run unbridged
          (lateInstall ++
            [.statement ⟨"src/net/io.rs", 0, .unspecified, .warning, false⟩ 0
              [.text "slow"]]) =
        run unbridged
          (lateInstall ++
            [.bridgeMessage ⟨.warn, some "src/net/io.rs", none⟩
              [.text "slow"]]) ∧
      Facade.gated.passes
          (interfaceAfter Facade.gated Facade.Gate.fresh lateInstall)
          .trace =
        true ∧
      (perform .installBridge (runSteps unbridged lateInstall).final).exit =
        .ok (.installation (.error .alreadyInstalled)) := by
  have law := bridgeLaw unbridged
  have same :=
    law.run_eq
      (lateInstall ++
        [.bridgeMessage ⟨.warn, some "src/net/io.rs", none⟩ [.text "slow"]])
  have interface :=
    law.interface Facade.gated Facade.Gate.fresh Facade.Gate.fresh lateInstall
      Facade.gated_documented rfl rfl
  exact ⟨same, interface.1 .trace, interface.2⟩

end GatedLog.Session
