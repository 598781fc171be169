import GatedLog.Proofs.Veil
import GatedLog.Session.Run

/-!
# Runs on a process that differs behind the veil

A run that starts after a panic goes the way that it would have gone without
the panic.  So does a run with another value of the environment variable, as
long as no initialization asks for it.  That holds for the threads that share a
process, under every schedule, and for the steps of a session, to the very end
of it.
-/

namespace GatedLog

namespace Concurrency.Machine

/-! ## Threads -/

/-- The same machine on a process that differs behind the veil. -/
def veiled
    (lock : Bool → Bool)
    (value : Option (List UInt8) → Option (List UInt8))
    (machine : Machine) :
    Machine :=
  { machine with host := machine.host.veiled lock value }

/-- The same machine on a marked process. -/
def marked (machine : Machine) : Machine :=
  { machine with host := machine.host.marked }

variable
    {lock : Bool → Bool}
    {value : Option (List UInt8) → Option (List UInt8)}
    (machine : Machine)

@[simp]
theorem veiled_host :
    (machine.veiled lock value).host = machine.host.veiled lock value :=
  rfl

@[simp]
theorem veiled_holder : (machine.veiled lock value).holder = machine.holder :=
  rfl

@[simp]
theorem veiled_threads : (machine.veiled lock value).threads = machine.threads :=
  rfl

@[simp]
theorem veiled_ended : (machine.veiled lock value).ended = machine.ended :=
  rfl

/-- Whether the lock is to be had does not depend on its mark. -/
theorem acquire?_veiled :
    (machine.veiled lock value).acquire? =
      machine.acquire?.map (veiled lock value) := by
  rw [acquire?_eq, acquire?_eq, veiled_holder]
  split <;> rfl

theorem beginCall_veiled (index : Nat) (thread : Thread) (call : Call) :
    (machine.veiled lock value).beginCall index thread call =
      (machine.beginCall index thread call).veiled lock value := by
  cases call with
  | close record =>
      simp only [beginCall, veiled_host, Host.veiled_context]
      rw [apply_ite (veiled lock value)]
      rfl
  | closeScope id =>
      simp only [beginCall]
      split <;> rfl
  | _ =>
      rfl

theorem abort_veiled
    (index : Nat)
    (thread : Thread)
    (aborter : Aborter)
    (message : String) :
    (machine.veiled lock value).abort index thread aborter message =
      (machine.abort index thread aborter message).veiled lock value := by
  simp only [abort]
  split <;> rfl

variable (keeps : lock true = true)

include keeps

theorem handLine_veiled
    (index : Nat)
    (thread : Thread)
    (delivery : Delivery)
    (text : String)
    (remaining : List String) :
    (machine.veiled lock value).handLine index thread delivery text remaining =
      (machine.handLine index thread delivery text
        remaining).veiled lock value := by
  simp only [handLine, veiled_host,
    Emission.hand_commutes keeps _ _ machine.host, Outcome.mapState]
  split <;> rfl

theorem advance_veiled (index : Nat) (thread : Thread) :
    (machine.veiled lock value).advance index thread =
      (machine.advance index thread).veiled lock value := by
  cases activity : thread.activity with
  | idle =>
      cases calls : thread.calls with
      | nil =>
          simp only [advance, activity, calls]
      | cons call rest =>
          simp only [advance, activity, calls, acquire?_veiled,
            beginCall_veiled]
          rw [apply_ite (veiled lock value)]
          cases machine.acquire? with
          | none =>
              rfl
          | some locked =>
              simp only [Option.map_some, beginCall_veiled]
  | waiting delivery =>
      simp only [advance, activity, acquire?_veiled]
      cases machine.acquire? <;> rfl
  | dispatching delivery remaining =>
      cases remaining with
      | nil =>
          simp only [advance, activity]
          rfl
      | cons text remaining =>
          simp only [advance, activity, handLine_veiled _ keeps]
  | announced aborter message =>
      simp only [advance, activity, abort_veiled]
  | claiming request =>
      simp only [advance, activity, veiled_host, Host.veiled_context]
      rw [apply_ite (veiled lock value)]
      rfl
  | leaving problem =>
      cases problem <;> simp only [advance, activity] <;> rfl
  | _ =>
      simp only [advance, activity]
      rfl

theorem step_veiled (index : Nat) :
    (machine.veiled lock value).step index =
      (machine.step index).veiled lock value := by
  cases ended : machine.ended with
  | true =>
      simp [step, ended]
  | false =>
      cases found : machine.threads[index]? with
      | none =>
          simp [step, ended, found]
      | some thread =>
          simp [step, ended, found, advance_veiled _ keeps]

/-- Under every schedule threads do the same, whatever lies behind the veil. -/
theorem run_veiled (schedule : List Nat) :
    (machine.veiled lock value).run schedule =
      (machine.run schedule).veiled lock value := by
  induction schedule generalizing machine with
  | nil =>
      rfl
  | cons index rest induction =>
      simp only [run, List.foldl_cons, step_veiled _ keeps]
      exact induction (machine.step index)

omit keeps in
/-- Under every schedule threads do on a marked process what they do on any other. -/
theorem run_marked (schedule : List Nat) :
    machine.marked.run schedule = (machine.run schedule).marked :=
  @run_veiled (fun _ => true) id machine rfl schedule

end Concurrency.Machine

namespace Session

open Operation

/-! ## Sessions -/

/-- The same session on a process that differs behind the veil. -/
def veiled
    (lock : Bool → Bool)
    (value : Option (List UInt8) → Option (List UInt8))
    (session : Session) :
    Session :=
  session.withHost (session.host.veiled lock value)

/-- The same session on a marked process. -/
def marked (session : Session) : Session :=
  session.withHost session.host.marked

section Veiled

variable
    {lock : Bool → Bool}
    {value : Option (List UInt8) → Option (List UInt8)}

@[simp]
theorem veiled_host (session : Session) :
    (session.veiled lock value).host = session.host.veiled lock value :=
  rfl

/-- What is done on the process alone commutes for sessions as it does there. -/
theorem onHost_commutes
    {Value : Type}
    {operation : Operation Host Value}
    (commutes : Commutes (Host.veiled lock value) operation) :
    Commutes (veiled lock value) (onHost operation) := by
  intro session
  have same := commutes session.host
  simp only [onHost, veiled, withHost] at same ⊢
  rw [same]
  rfl

theorem silently_commutes
    {Value : Type}
    {operation : Operation Session Value}
    (commutes : Commutes (veiled lock value) operation) :
    Commutes (veiled lock value) (silently operation) :=
  commutes.mapValue _

theorem closeScope_commutes (id : String) :
    Commutes (veiled lock value) (closeScope id) := by
  intro session
  cases found : session.scopes.lookup id with
  | none =>
      have also : (session.veiled lock value).scopes.lookup id = none := found
      rw [closeScope_of_none found, closeScope_of_none also]
      rfl
  | some previous =>
      have also :
          (session.veiled lock value).scopes.lookup id = some previous := found
      rw [closeScope_of_some found, closeScope_of_some also]
      rfl

theorem append_commutes (id : String) (fragments : List String) :
    Commutes (veiled lock value) (append id fragments) := by
  intro session
  cases found : session.records.lookup id with
  | none =>
      have also : (session.veiled lock value).records.lookup id = none := found
      rw [append_of_none found, append_of_none also]
      rfl
  | some record =>
      have also :
          (session.veiled lock value).records.lookup id = some record := found
      rw [append_of_some found, append_of_some also]
      rfl

/-- Whether a step reads the environment variable. -/
def Step.readsEnvironment : Step → Bool
  | .setUpFromEnvironment _ _ _ => true
  | .configure choices =>
      decide ((Configuration.ofChoices choices).tags = .environment)
  | _ => false

/-- Whether a step reads or writes the environment variable. -/
def Step.heedsEnvironment : Step → Bool
  | .setEnvironment _ => true
  | step => step.readsEnvironment

/-- The same report, of a run that left a process that differs behind the veil. -/
def Report.veiled
    (lock : Bool → Bool)
    (value : Option (List UInt8) → Option (List UInt8))
    (report : Report) :
    Report :=
  { report with final := report.final.veiled lock value }

theorem runAll_veiled
    {operations : List (Operation Session Result)}
    (commute :
      ∀ operation ∈ operations,
        Commutes (Session.veiled lock value) operation)
    (session : Session) :
    runAll (session.veiled lock value) operations =
      (runAll session operations).veiled lock value := by
  induction operations generalizing session with
  | nil =>
      rfl
  | cons operation rest induction =>
      have first := commute operation List.mem_cons_self session
      have others := fun other member =>
        commute other (List.mem_cons_of_mem _ member)
      simp only [runAll, first, Outcome.mapState, induction others]
      split <;> rfl

variable (keeps : lock true = true)

include keeps

theorem write_commutes (id : String) (argument : List Piece) :
    Commutes (veiled lock value) (write id argument) := by
  intro session
  cases found : session.records.lookup id with
  | none =>
      have also : (session.veiled lock value).records.lookup id = none := found
      rw [write_of_none found, write_of_none also]
      rfl
  | some record =>
      have also :
          (session.veiled lock value).records.lookup id = some record := found
      rw [write_of_some found, write_of_some also, veiled_host,
        Argument.write_veiled keeps]
      rfl

theorem closeRecord_commutes (id : String) :
    Commutes (veiled lock value) (closeRecord id) := by
  intro session
  cases found : session.records.lookup id with
  | none =>
      have also : (session.veiled lock value).records.lookup id = none := found
      rw [closeRecord_of_none found, closeRecord_of_none also]
      rfl
  | some record =>
      have also :
          (session.veiled lock value).records.lookup id = some record := found
      rw [closeRecord_of_some found, closeRecord_of_some also, veiled_host,
        record.close_commutes keeps session.host]
      rfl

open Concurrency in
theorem concurrent_commutes
    (threads : List (List Record))
    (loggers : List Logger) :
    Commutes (Host.veiled lock value) (concurrent threads loggers) := by
  intro host
  have started :
      ∀ calls,
        Machine.start (host.veiled lock value) calls =
          (Machine.start host calls).veiled lock value :=
    fun _ => rfl
  have same_schedule :
      ∀ machine : Machine,
        (machine.veiled lock value).sequentialSchedule =
          machine.sequentialSchedule :=
    fun _ => rfl
  simp only [concurrent, started, same_schedule, Machine.run_veiled _ keeps]
  rfl

open Concurrency in
theorem standingsAfter_veiled (machine : Machine) (indices : List Nat) :
    standingsAfter (machine.veiled lock value) indices =
      ((standingsAfter machine indices).1.veiled lock value,
        (standingsAfter machine indices).2) := by
  induction indices generalizing machine with
  | nil =>
      rfl
  | cons index rest induction =>
      have same_steps :
          (machine.veiled lock value).enoughSteps = machine.enoughSteps := rfl
      simp only [standingsAfter, Machine.veiled_threads, same_steps,
        Machine.run_veiled _ keeps, induction]
      rfl

open Concurrency in
theorem concurrentSetUp_commutes (requests : List Initialization) :
    Commutes (Host.veiled lock value) (concurrentSetUp requests) := by
  intro host
  have started :
      ∀ calls,
        Machine.start (host.veiled lock value) calls =
          (Machine.start host calls).veiled lock value :=
    fun _ => rfl
  simp only [concurrentSetUp, started, standingsAfter_veiled keeps]
  rfl

/-- Every step does the same, whatever lies behind the veil. -/
theorem perform_commutes
    (step : Step)
    (unchanged : step.heedsEnvironment = true → value = id) :
    Commutes (veiled lock value) (perform step) := by
  cases step with
  | setThreshold severity =>
      intro session
      rw [perform_setThreshold, perform_setThreshold]
      rfl
  | openScope id severity =>
      intro session
      rw [perform_openScope, perform_openScope]
      rfl
  | closeScope id =>
      exact silently_commutes (closeScope_commutes id)
  | setLogger logger =>
      intro session
      rw [perform_setLogger, perform_setLogger]
      rfl
  | setAborter aborter =>
      intro session
      rw [perform_setAborter, perform_setAborter]
      rfl
  | record record argument =>
      exact onHost_commutes
        ((record.writeAndClose_commutes keeps argument).mapValue _)
  | append id fragments =>
      exact append_commutes id fragments
  | write id argument =>
      exact write_commutes keeps id argument
  | closeRecord id =>
      exact silently_commutes (closeRecord_commutes keeps id)
  | emit header message =>
      exact silently_commutes
        (onHost_commutes (emit_commutes keeps header message))
  | setUp request =>
      exact silently_commutes (onHost_commutes (request.run_commutes keeps))
  | setUpFromEnvironment program logger aborter =>
      exact silently_commutes
        (onHost_commutes
          (Initialization.runFromEnvironment_commutes keeps (unchanged rfl)
            program logger aborter))
  | configure choices =>
      exact silently_commutes
        (onHost_commutes
          ((Configuration.ofChoices choices).run_commutes keeps
            fun source => unchanged (decide_eq_true source)))
  | setEnvironment environment =>
      have same : value = id := unchanged rfl
      subst same
      intro session
      rfl
  | statement statement errno argument =>
      refine onHost_commutes (Commutes.mapValue ?_ _)
      exact Commutes.andThen (fun _ => rfl) fun _ =>
        statement.run_commutes keeps argument
  | bridgeMessage message argument =>
      exact onHost_commutes ((message.run_commutes keeps argument).mapValue _)
  | installBridge =>
      exact onHost_commutes (Bridge.install_commutes.mapValue _)
  | concurrent threads loggers =>
      exact onHost_commutes (concurrent_commutes keeps threads loggers)
  | concurrentSetUp requests =>
      exact onHost_commutes (concurrentSetUp_commutes keeps requests)
  | _ =>
      intro session
      rfl

theorem runSteps_veiled
    {steps : List Step}
    (unchanged : ∀ step ∈ steps, step.heedsEnvironment = true → value = id)
    (session : Session) :
    runSteps (session.veiled lock value) steps =
      (runSteps session steps).veiled lock value := by
  apply runAll_veiled
  intro operation member
  rcases List.mem_map.mp member with ⟨step, given, rfl⟩
  exact perform_commutes keeps step (unchanged step given)

theorem leftovers_commute (session : Session) :
    ∀ operation ∈ leftovers session,
      Commutes (Session.veiled lock value) operation := by
  intro operation member
  rcases List.mem_append.mp member with record | scope
  · rcases List.mem_map.mp record with ⟨entry, _, rfl⟩
    exact (closeRecord_commutes keeps entry.1).mapValue _
  · rcases List.mem_map.mp scope with ⟨entry, _, rfl⟩
    exact (closeScope_commutes entry.1).mapValue _

/-- What reports agree in before the closings, they agree in at the very end. -/
theorem run_veiled_of_runSteps
    {session other : Session}
    {steps others : List Step}
    (before :
      runSteps other others = (runSteps session steps).veiled lock value) :
    run other others = (run session steps).veiled lock value := by
  have same_leftovers :
      ∀ reached : Session,
        leftovers (reached.veiled lock value) = leftovers reached :=
    fun _ => rfl
  have same_end :
      ∀ report : Report,
        (report.veiled lock value).terminated = report.terminated :=
    fun _ => rfl
  have closed :=
    @runAll_veiled lock value _
      (leftovers_commute keeps (runSteps session steps).final)
  simp only [run, before, same_end]
  split
  · rfl
  · have final_veiled :
        ((runSteps session steps).veiled lock value).final =
          (runSteps session steps).final.veiled lock value := rfl
    rw [final_veiled, same_leftovers, closed]
    rfl

end Veiled

/-! ## Marked processes -/

/-- The same report, of a run that left its process marked. -/
def Report.marked (report : Report) : Report :=
  { report with final := report.final.marked }

/-- On a marked process the same is closed in the end. -/
theorem runAll_leftovers_marked (session reached : Session) :
    runAll session.marked (leftovers reached) =
      (runAll session (leftovers reached)).marked :=
  @runAll_veiled (fun _ => true) id _ (leftovers_commute rfl reached) session

/-- A session on a marked process gives the same report, to its very end. -/
theorem run_marked (session : Session) (steps : List Step) :
    run session.marked steps = (run session steps).marked :=
  @run_veiled_of_runSteps (fun _ => true) id rfl _ _ _ _
    (@runSteps_veiled (fun _ => true) id rfl _ (fun _ _ _ => rfl) session)

end Session

end GatedLog
