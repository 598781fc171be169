import GatedLog.Proofs.Concurrency.Sequential
import GatedLog.Proofs.Concurrency.Trail
import GatedLog.Proofs.Session.Effects

/-!
# Trails of sessions

A session follows a trail from its first step to the closing of what was left
open, through everything that its report says was received.  All that the
trail asks of the steps are the loggers that they install.  The installation of
the bridge is not for every trail, and may be left out.
-/

namespace GatedLog

/-- A relation holds of an operation on sessions, as far as their processes go. -/
def Session.Keeps
    {Value : Type}
    (Relation : Host → List Event → Host → Prop)
    (operation : Operation Session Value) : Prop :=
  ∀ session : Session,
    Relation session.host
      (operation session).events (operation session).state.host

namespace Host.Trail

open Session Concurrency

variable
    {Installed : Logger → Prop}
    {Relation : Host → List Event → Host → Prop}
    (trail : Host.Trail Installed Relation)

include trail

/-! ## Steps -/

theorem concurrent
    {threads : List (List Record)}
    {loggers : List Logger}
    (installed : ∀ logger ∈ loggers, Installed logger) :
    (Session.concurrent threads loggers).Keeps Relation := by
  intro host
  have all_installed :
      ∀ own ∈ loggers.map Call.setLogger ::
          threads.map fun records => records.map Call.close,
        ∀ call ∈ own, ∀ logger ∈ call.loggers, Installed logger := by
    intro own owns call member logger installs
    rcases List.mem_cons.mp owns with rfl | closing
    · rcases List.mem_map.mp member with ⟨other, other_member, rfl⟩
      rcases List.mem_singleton.mp installs with rfl
      exact installed _ other_member
    · rcases List.mem_map.mp closing with ⟨records, _, rfl⟩
      rcases List.mem_map.mp member with ⟨record, _, rfl⟩
      cases installs
  simp only [Session.concurrent, Machine.sortedLog_run_sequentialSchedule]
  exact (Machine.run_onTrail trail all_installed _).related

theorem concurrentSetUp
    {requests : List Initialization}
    (installed : ∀ request ∈ requests, Installed request.logger) :
    (Session.concurrentSetUp requests).Keeps Relation := by
  intro host
  have all_installed :
      ∀ own ∈ requests.map fun request => [Call.setUp request],
        ∀ call ∈ own, ∀ logger ∈ call.loggers, Installed logger := by
    intro own owns call member logger installs
    rcases List.mem_map.mp owns with ⟨request, request_member, rfl⟩
    rcases List.mem_singleton.mp member with rfl
    rcases List.mem_singleton.mp installs with rfl
    exact installed request request_member
  rcases Machine.exists_run_of_standingsAfter
      (Machine.start host (requests.map fun request => [Call.setUp request]))
      (List.range requests.length) with
    ⟨order, _, run_eq⟩
  simp only [Session.concurrentSetUp, Machine.sortedLog_standingsAfter]
  rw [run_eq]
  exact (Machine.run_onTrail trail all_installed _).related

theorem closeRecord (id : String) :
    Session.Keeps Relation (Session.closeRecord id) := by
  intro session
  simp only [Session.closeRecord]
  split
  · exact trail.refl session.host
  · next record _ =>
      exact trail.close record session.host

theorem closeScope (id : String) :
    Session.Keeps Relation (Session.closeScope id) := by
  intro session
  simp only [Session.closeScope]
  split
  · exact trail.refl session.host
  · next previous _ =>
      exact trail.threshold previous session.host

theorem perform
    {step : Step}
    (installed : ∀ logger ∈ step.loggers, Installed logger)
    (bridges :
      step = .installBridge →
        ∀ host : Host, Relation host [] { host with bridged := true }) :
    Session.Keeps Relation (Session.perform step) := by
  intro session
  cases step with
  | setThreshold severity =>
      exact trail.threshold severity session.host
  | openScope id severity =>
      exact trail.threshold severity session.host
  | closeScope id =>
      exact trail.closeScope id session
  | setLogger logger =>
      rw [Session.perform_setLogger]
      exact
        trail.configures session.host _
          (Or.inr (installed logger List.mem_cons_self))
  | setAborter aborter =>
      rw [Session.perform_setAborter]
      exact trail.configures session.host _ (Or.inl rfl)
  | record record argument =>
      exact trail.writeAndClose record argument session.host
  | append id fragments =>
      simp only [Session.perform, Session.append, Operation.modifyGet]
      split <;> exact trail.refl session.host
  | write id argument =>
      simp only [Session.perform, Session.write]
      split
      · exact trail.refl session.host
      · exact trail.write argument session.host
  | closeRecord id =>
      exact trail.closeRecord id session
  | emit header message =>
      exact trail.emit header message session.host
  | setUp request =>
      exact trail.setUp (installed request.logger List.mem_cons_self) session.host
  | setUpFromEnvironment program logger aborter =>
      exact
        @setUp _ _ trail
          ⟨program, .ok session.host.environmentTags, logger, aborter⟩
          (installed logger List.mem_cons_self) session.host
  | configure choices =>
      exact trail.configure (installed _ List.mem_cons_self) session.host
  | setEnvironment value =>
      exact trail.exports session.host value
  | statement site errno argument =>
      have sets : (Host.setErrno errno).Keeps Relation :=
        fun host => trail.errs host errno
      exact
        trail.andThen sets (fun _ => trail.statement site argument) session.host
  | bridgeMessage message argument =>
      exact trail.bridgeMessage message argument session.host
  | installBridge =>
      simp only [Session.perform, Session.onHost]
      cases bridged : session.host.bridged with
      | true =>
          rw [Bridge.install_of_bridged bridged]
          exact trail.refl session.host
      | false =>
          rw [Bridge.install_of_not_bridged bridged]
          exact bridges rfl session.host
  | concurrent threads loggers =>
      exact trail.concurrent installed session.host
  | concurrentSetUp requests =>
      refine trail.concurrentSetUp ?_ session.host
      exact fun request member => installed _ (List.mem_map_of_mem member)
  | _ =>
      exact trail.refl session.host

/-! ## Runs -/

theorem runAll
    {operations : List (Operation Session Result)}
    (keep : ∀ operation ∈ operations, Session.Keeps Relation operation)
    (session : Session) :
    Relation session.host
      (Session.runAll session operations).events
      (Session.runAll session operations).final.host := by
  induction operations generalizing session with
  | nil =>
      exact trail.refl session.host
  | cons operation rest induction =>
      have first := keep operation List.mem_cons_self session
      have others :=
        induction
          (fun other member => keep other (List.mem_cons_of_mem _ member))
          (operation session).state
      have together := trail.trans first others
      simp only [Session.runAll]
      split
      · simpa [Report.events] using first
      · simpa [Report.events, Report.afterAnswer, List.append_assoc]
          using together

section Runs

variable
    {steps : List Step}
    (installed : ∀ step ∈ steps, ∀ logger ∈ step.loggers, Installed logger)
    (bridges :
      .installBridge ∈ steps →
        ∀ host : Host, Relation host [] { host with bridged := true })

include installed bridges

theorem runSteps (session : Session) :
    Relation session.host
      (Session.runSteps session steps).events
      (Session.runSteps session steps).final.host := by
  refine trail.runAll (fun operation member => ?_) session
  rcases List.mem_map.mp member with ⟨step, step_member, rfl⟩
  exact
    trail.perform (installed step step_member)
      fun installing => bridges (installing ▸ step_member)

/-- A whole session follows the trail, to the closing of what was left open. -/
theorem run (session : Session) :
    Relation session.host
      (Session.run session steps).events
      (Session.run session steps).final.host := by
  have first := trail.runSteps installed bridges session
  simp only [Session.run]
  split
  · exact first
  · next goes =>
      have closings :
          ∀ operation ∈ leftovers (Session.runSteps session steps).final,
            Session.Keeps Relation operation := by
        intro operation member
        rcases List.mem_append.mp member with record | scope
        · rcases List.mem_map.mp record with ⟨entry, _, rfl⟩
          exact trail.closeRecord entry.1
        · rcases List.mem_map.mp scope with ⟨entry, _, rfl⟩
          exact trail.closeScope entry.1
      have last := trail.runAll closings (Session.runSteps session steps).final
      have nothing_lost := lost_runAll_of_alive (eq_false_of_ne_true goes)
      have together := trail.trans first last
      rw [Report.events, Session.runSteps, nothing_lost, List.append_nil]
        at together
      simpa [Report.events, Session.runSteps, List.append_assoc] using together

end Runs

end Host.Trail

end GatedLog
