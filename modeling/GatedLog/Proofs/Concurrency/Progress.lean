import GatedLog.Concurrency.Schedule
import GatedLog.Proofs.Concurrency.Blocks

/-!
# Threads come to an end

A thread that makes plain calls and is not kept waiting gets some of its work
done with every step.  So running the threads one after the other, each for as
many steps as its work amounts to, finishes all of them, and the lock is free
in between.
-/

namespace GatedLog.Concurrency

/-- How many steps are left of what a thread is in the middle of. -/
def Activity.work : Activity → Nat
  | .waiting delivery => (Text.splitLines delivery.message).length + 2
  | .dispatching _ remaining => remaining.length + 1
  | _ => 0

/-- As many steps as a thread can still need for its plain calls. -/
def Thread.work (thread : Thread) : Nat :=
  thread.activity.work + total (thread.calls.map fun call => call.lines + 3)

variable
    {context : Context}
    {fallback : Channel}
    {calls : List (List Call)}
    {machine : Machine}
    {index : Nat}
    {thread : Thread}

/-- A thread that has the machine to itself is done, or gets on with its work. -/
structure GetsOn
    (machine : Machine)
    (index : Nat)
    (thread : Thread)
    (after : Machine) : Prop where
  moves :
    ∃ next,
      after.threads = machine.threads.set index next ∧ next.work < thread.work
  available : after.holder = none ∨ after.holder = some index

theorem getsOn_beginCall
    {reached : Nat}
    {scopes : List (String × Severity)}
    {call : Call}
    {rest : List Call}
    (passes :
      ∀ severity,
        machine.host.context.shouldEmit severity = context.shouldEmit severity)
    (plain : call.Plain context fallback)
    (free : machine.holder = none) :
    GetsOn machine index ⟨.idle, call :: rest, reached, scopes⟩
      (machine.beginCall index ⟨.idle, rest, reached + 1, scopes⟩ call) := by
  cases plain with
  | @close record passing returns =>
      rw [← passes] at passing
      simp only [Machine.beginCall, passing, if_true]
      refine ⟨⟨_, rfl, ?_⟩, Or.inl free⟩
      simp only [Thread.work, Activity.work, List.map_cons, total_cons,
        Call.lines]
      omega
  | emit returns message =>
      simp only [Machine.beginCall]
      refine ⟨⟨_, rfl, ?_⟩, Or.inl free⟩
      simp only [Thread.work, Activity.work, List.map_cons, total_cons,
        Call.lines]
      omega
  | setLogger relays =>
      simp only [Machine.beginCall]
      refine ⟨⟨_, rfl, ?_⟩, Or.inl free⟩
      simp only [Thread.work, Activity.work, List.map_cons, total_cons]
      omega

theorem getsOn_advance
    (plain : ∀ own ∈ calls, ∀ call ∈ own, call.Plain context fallback)
    (accounted : Accounted context fallback calls machine)
    (member : machine.threads[index]? = some thread)
    (available : machine.holder = none ∨ machine.holder = some index) :
    (thread.isDone = true ∧ machine.advance index thread = machine) ∨
      GetsOn machine index thread (machine.advance index thread) := by
  rcases accounted with ⟨blocks, unfinished, account⟩
  rcases account.staged index thread member with
    ⟨own, reached, owns, stage, tasks_eq⟩
  have own_plain := plain own (List.mem_of_getElem? owns)
  have free : thread.activity.holdsLock = false → machine.holder = none := by
    intro idle
    rcases available with free | owned
    · exact free
    · have holds := (account.kept index thread member).mpr owned
      rw [idle] at holds
      cases holds
  cases stage with
  | @rests scopes =>
      cases next : own.drop reached with
      | nil =>
          exact Or.inl ⟨rfl, rfl⟩
      | cons call rest =>
          rcases getElem?_of_drop_eq_cons next with ⟨current, _⟩
          have call_plain := own_plain call (List.mem_of_getElem? current)
          have passes :
              ∀ severity,
                machine.host.context.shouldEmit severity =
                  context.shouldEmit severity := by
            intro severity
            rw [account.context_eq]
            rfl
          right
          simp only [Machine.advance, Machine.acquire?_of_free (free rfl),
            ite_self]
          exact getsOn_beginCall passes call_plain (free rfl)
  | @waits scopes delivery current =>
      right
      simp only [Machine.advance, Machine.acquire?_of_free (free rfl)]
      refine ⟨⟨_, rfl, ?_⟩, Or.inr rfl⟩
      simp only [Thread.work, Activity.work]
      omega
  | @hands scopes delivery remaining current =>
      have owned : machine.holder = some index :=
        (account.kept index _ member).mp rfl
      right
      cases remaining with
      | nil =>
          rcases Option.bind_eq_some_iff.mp current with ⟨call, found, delivers⟩
          rcases
            (own_plain call (List.mem_of_getElem? found)).quiet delivers with
            ⟨returns, announces⟩
          have idle :
              Machine.afterDelivery machine.host.context delivery = .idle := by
            simp only [Machine.afterDelivery, returns, announces]
            rfl
          simp only [Machine.advance, idle]
          refine ⟨⟨_, rfl, ?_⟩, Or.inl rfl⟩
          simp only [Thread.work, Activity.work, List.length_nil]
          omega
      | cons text remaining =>
          have handing :=
            Emission.hand_of_relays account.relays delivery.header text
          simp only [Machine.advance, Machine.handLine, handing]
          refine ⟨⟨_, rfl, ?_⟩, Or.inr owned⟩
          simp only [Thread.work, Activity.work, List.length_cons]
          omega

/-- A thread that is done does not hold the lock. -/
theorem free_of_done
    (accounted : Accounted context fallback calls machine)
    (member : machine.threads[index]? = some thread)
    (available : machine.holder = none ∨ machine.holder = some index)
    (done : thread.isDone = true) :
    machine.holder = none := by
  rcases accounted with ⟨blocks, unfinished, account⟩
  rcases available with free | owned
  · exact free
  · have holds := (account.kept index thread member).mpr owned
    rcases thread with ⟨activity, rest, begun, scopes⟩
    cases activity with
    | idle =>
        cases holds
    | _ =>
        cases done

/-- A thread that is done stays so, and no step of it changes anything. -/
theorem step_of_done
    (done : thread.isDone = true)
    (member : machine.threads[index]? = some thread) :
    machine.step index = machine := by
  rcases thread with ⟨activity, rest, begun, scopes⟩
  have idle : activity = .idle ∧ rest = [] := by
    cases activity <;> cases rest <;> first | exact ⟨rfl, rfl⟩ | cases done
  rcases idle with ⟨rfl, rfl⟩
  simp only [Machine.step, member, Machine.advance]
  split <;> rfl

theorem run_replicate_of_done
    (done : thread.isDone = true)
    (member : machine.threads[index]? = some thread)
    (steps : Nat) :
    machine.run (List.replicate steps index) = machine := by
  induction steps with
  | zero =>
      rfl
  | succ steps induction =>
      rw [List.replicate_succ, Machine.run, List.foldl_cons,
        step_of_done done member]
      exact induction

theorem step_of_member
    (accounted : Accounted context fallback calls machine)
    (member : machine.threads[index]? = some thread) :
    machine.step index = machine.advance index thread := by
  rcases accounted with ⟨blocks, unfinished, account⟩
  simp only [Machine.step, account.running, member]
  rfl

/-- Some thread is done, the lock is free, and the other threads are as they were. -/
structure Finished (machine after : Machine) (index : Nat) : Prop where
  done : ∃ last, after.threads[index]? = some last ∧ last.isDone = true
  free : after.holder = none
  others :
    ∀ other, other ≠ index → after.threads[other]? = machine.threads[other]?

theorem finished_run_replicate
    (plain : ∀ own ∈ calls, ∀ call ∈ own, call.Plain context fallback)
    (accounted : Accounted context fallback calls machine)
    (member : machine.threads[index]? = some thread)
    (available : machine.holder = none ∨ machine.holder = some index)
    {steps : Nat}
    (enough : thread.work ≤ steps) :
    Finished machine (machine.run (List.replicate steps index)) index := by
  induction steps generalizing machine thread with
  | zero =>
      rcases getsOn_advance plain accounted member available with finished | getsOn
      · exact
          ⟨⟨thread, member, finished.1⟩,
            free_of_done accounted member available finished.1, fun _ _ => rfl⟩
      -- Without any work left there is nothing to get on with.
      · rcases getsOn.moves with ⟨next, _, less⟩
        omega
  | succ steps induction =>
      rcases getsOn_advance plain accounted member available with finished | getsOn
      · rw [run_replicate_of_done finished.1 member]
        exact
          ⟨⟨thread, member, finished.1⟩,
            free_of_done accounted member available finished.1, fun _ _ => rfl⟩
      · rcases getsOn.moves with ⟨next, threads, less⟩
        have inside := (List.getElem?_eq_some_iff.mp member).1
        rw [← step_of_member accounted member] at getsOn threads
        have next_member : (machine.step index).threads[index]? = some next := by
          rw [threads]
          exact List.getElem?_set_self inside
        have later :=
          induction (accounted.run plain [index]) next_member
            getsOn.available (by omega)
        refine ⟨later.done, later.free, ?_⟩
        intro other different
        have unmoved :
            (machine.step index).threads[other]? = machine.threads[other]? := by
          rw [threads]
          exact List.getElem?_set_ne different.symm
        exact (later.others other different).trans unmoved

/-- The first thread of an order takes all of its steps before the others begin. -/
theorem run_flatMap_cons
    {Key : Type}
    (machine : Machine)
    (turn : Key × Nat)
    (rest : List (Key × Nat))
    (steps : Key → Nat) :
    machine.run
        ((turn :: rest).flatMap fun turn =>
          List.replicate (steps turn.1) turn.2) =
      (machine.run (List.replicate (steps turn.1) turn.2)).run
        (rest.flatMap fun turn => List.replicate (steps turn.1) turn.2) := by
  rw [List.flatMap_cons]
  exact List.foldl_append

/-- All threads of some order are done, and the others are as they were. -/
structure AllFinished
    (machine after : Machine)
    (order : List (Thread × Nat)) : Prop where
  done :
    ∀ turn ∈ order,
      ∃ last, after.threads[turn.2]? = some last ∧ last.isDone = true
  others :
    ∀ other, other ∉ order.map Prod.snd →
      after.threads[other]? = machine.threads[other]?

/-- Threads that run one after the other, each with enough steps, come to an end. -/
theorem allFinished_run_flatMap
    (plain : ∀ own ∈ calls, ∀ call ∈ own, call.Plain context fallback)
    (accounted : Accounted context fallback calls machine)
    (free : machine.holder = none)
    {order : List (Thread × Nat)}
    {steps : Thread → Nat}
    (members : ∀ turn ∈ order, machine.threads[turn.2]? = some turn.1)
    (distinct : (order.map Prod.snd).Nodup)
    (enough : ∀ turn ∈ order, turn.1.work ≤ steps turn.1) :
    AllFinished machine
      (machine.run
        (order.flatMap fun turn => List.replicate (steps turn.1) turn.2))
      order := by
  induction order generalizing machine with
  | nil =>
      exact ⟨by simp, fun _ _ => rfl⟩
  | cons turn rest induction =>
      rcases turn with ⟨thread, index⟩
      have member := members _ List.mem_cons_self
      rcases List.nodup_cons.mp distinct with ⟨new, rest_distinct⟩
      have finished :=
        finished_run_replicate plain accounted member (Or.inl free)
          (enough _ List.mem_cons_self)
      have rest_members :
          ∀ turn ∈ rest,
            (machine.run
                  (List.replicate (steps thread) index)).threads[turn.2]? =
              some turn.1 := by
        intro turn turnMember
        have different : turn.2 ≠ index := by
          rintro rfl
          exact new (List.mem_map.mpr ⟨turn, turnMember, rfl⟩)
        rw [finished.others _ different]
        exact members turn (List.mem_cons_of_mem _ turnMember)
      have later :=
        induction
          (accounted.run plain (List.replicate (steps thread) index))
          finished.free rest_members rest_distinct
          fun turn member => enough turn (List.mem_cons_of_mem _ member)
      rw [run_flatMap_cons]
      constructor
      · intro turn turnMember
        rcases List.mem_cons.mp turnMember with rfl | turnMember
        · rw [later.others index new]
          exact finished.done
        · exact later.done turn turnMember
      · intro other absent
        rw [List.map_cons, List.mem_cons, not_or] at absent
        rw [later.others other absent.2]
        exact finished.others other absent.1

/-- The steps that a schedule reserves for a thread are enough for plain calls. -/
theorem work_le_enoughSteps (machine : Machine) (own : List Call) :
    (Thread.new own).work ≤ machine.enoughSteps (Thread.new own) := by
  have each :
      total (own.map fun call => call.lines + 3) ≤
        total
          (own.map fun call =>
            call.lines + machine.abortLines + Machine.stepsBesideLines) := by
    induction own with
    | nil =>
        exact Nat.le_refl _
    | cons call rest induction =>
        simp only [List.map_cons, total_cons, Machine.stepsBesideLines]
          at induction ⊢
        omega
  simp only [Thread.work, Thread.new, Activity.work, Nat.zero_add]
  exact each

/-- Running the threads one after the other finishes all of them. -/
theorem Machine.isDone_sequentialSchedule
    {host : Host}
    (relays : host.context.logger.Relays fallback)
    (plain : ∀ own ∈ calls, ∀ call ∈ own, call.Plain host.context fallback) :
    ((start host calls).run (start host calls).sequentialSchedule).isDone =
      true := by
  have accounted : Accounted host.context fallback calls (start host calls) :=
    ⟨[], [], account_start relays calls⟩
  have distinct :
      (((start host calls).threads.zipIdx).map Prod.snd).Nodup := by
    rw [List.zipIdx_map_snd]
    exact List.nodup_range'
  have enough :
      ∀ turn ∈ (start host calls).threads.zipIdx,
        turn.1.work ≤ (start host calls).enoughSteps turn.1 := by
    intro turn turnMember
    have member := List.mem_zipIdx_iff_getElem?.mp turnMember
    rw [start, List.getElem?_map] at member
    rcases Option.map_eq_some_iff.mp member with ⟨own, _, thread_eq⟩
    rw [← thread_eq]
    exact work_le_enoughSteps _ own
  have finished :=
    allFinished_run_flatMap plain accounted rfl
      (fun turn member => List.mem_zipIdx_iff_getElem?.mp member)
      distinct enough
  rw [isDone, List.all_eq_true]
  intro thread threadMember
  rcases List.mem_iff_getElem?.mp threadMember with ⟨index, member⟩
  rcases
    accounted.run plain (start host calls).sequentialSchedule with
    ⟨blocks, unfinished, account⟩
  have inside : index < (start host calls).threads.length := by
    rw [start, List.length_map, ← account.threads_length]
    exact (List.getElem?_eq_some_iff.mp member).1
  have turnMember :
      ((start host calls).threads[index], index) ∈
        (start host calls).threads.zipIdx :=
    List.mem_zipIdx_iff_getElem?.mpr (List.getElem?_eq_getElem inside)
  rcases finished.done _ turnMember with ⟨last, lastMember, lastDone⟩
  have same : some thread = some last := member.symm.trans lastMember
  cases same
  exact lastDone

end GatedLog.Concurrency
