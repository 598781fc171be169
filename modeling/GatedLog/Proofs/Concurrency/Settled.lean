import GatedLog.Proofs.Concurrency.Lock
import GatedLog.Proofs.Preservation
import GatedLog.Session.Step

/-!
# An initialized context stays initialized, and keeps its name

Threads may race to initialize a context.  Once it is initialized, none of them
comes to the point of storing a name and a threshold again: whoever tests the
mark afterwards yields.  So the tag stays what it was, after every schedule.
-/

namespace GatedLog

/-- A context that is initialized, under a given tag. -/
structure Context.Settled (tag : String) (context : Context) : Prop where
  initialized : context.initialized = true
  tag_eq : context.tag = tag

namespace Concurrency

namespace Machine

/-- The context is initialized, and no thread is about to store anything in it. -/
structure Settled (tag : String) (machine : Machine) : Prop where
  context : machine.host.context.Settled tag
  nobody :
    ∀ (index : Nat) (thread : Thread) (request : Initialization),
      machine.threads[index]? = some thread →
        thread.activity ≠ .stashing request

variable
    {tag : String}
    {machine after : Machine}
    {index : Nat}
    {thread next : Thread}

/-- One thread moves on, but not to the point of storing something. -/
theorem Settled.of_moved
    (settled : machine.Settled tag)
    (context : after.host.context.Settled tag)
    (threads : after.threads = machine.threads.set index next)
    (quiet : ∀ request, next.activity ≠ .stashing request) :
    after.Settled tag := by
  refine ⟨context, ?_⟩
  intro other otherThread request member
  rw [threads] at member
  rcases getElem?_set_cases member with ⟨_, rfl⟩ | ⟨_, unmoved⟩
  · exact quiet request
  · exact settled.nobody other otherThread request unmoved

theorem settled_beginCall
    {calls : List Call}
    (settled : machine.Settled tag)
    (idle : thread.activity = .idle)
    (call : Call) :
    (machine.beginCall index
      { thread with calls := calls, begun := thread.begun + 1 } call).Settled
        tag := by
  have quiet : ∀ request, thread.activity ≠ .stashing request := by
    rw [idle]
    exact fun _ => Activity.noConfusion
  have initialized := settled.context.initialized
  have tag_eq := settled.context.tag_eq
  cases call with
  | close record =>
      simp only [beginCall]
      split
      · exact settled.of_moved settled.context rfl fun _ => Activity.noConfusion
      · exact settled.of_moved settled.context rfl quiet
  | emit header message =>
      exact settled.of_moved settled.context rfl fun _ => Activity.noConfusion
  | setUp request =>
      exact settled.of_moved settled.context rfl fun _ => Activity.noConfusion
  | closeScope id =>
      simp only [beginCall]
      split
      · exact settled.of_moved settled.context rfl quiet
      · exact settled.of_moved ⟨initialized, tag_eq⟩ rfl quiet
  | _ =>
      exact settled.of_moved ⟨initialized, tag_eq⟩ rfl quiet

/-- Whoever is about to store something holds the lock. -/
theorem ne_stashing_of_free
    {activity : Activity}
    (free : activity.holdsLock = false)
    (request : Initialization) :
    activity ≠ .stashing request := by
  rintro rfl
  cases free

theorem settled_of_turn
    (settled : machine.Settled tag)
    (member : machine.threads[index]? = some thread)
    (turn : Turn machine index thread after) :
    after.Settled tag := by
  have initialized := settled.context.initialized
  have tag_eq := settled.context.tag_eq
  cases turn with
  | pauses =>
      exact settled
  | begins idle next free =>
      exact settled_beginCall settled idle _
  | hands dispatching =>
      have same := Emission.hand_context
      simp only [handLine]
      split
      · refine settled.of_moved ?_ rfl fun _ => Activity.noConfusion
        exact (same _ _ machine.host).symm ▸ settled.context
      · refine settled.of_moved ?_ rfl fun _ => Activity.noConfusion
        exact (same _ _ machine.host).symm ▸ settled.context
  | releases dispatched =>
      exact settled.of_moved settled.context rfl
        (ne_stashing_of_free (holdsLock_afterDelivery _ _))
  | announces aborting =>
      exact settled.of_moved settled.context rfl
        (ne_stashing_of_free (holdsLock_announcing _ _ _))
  | aborts announced =>
      simp only [abort]
      split
      · exact ⟨settled.context, settled.nobody⟩
      · exact settled.of_moved settled.context rfl fun _ => Activity.noConfusion
  | claims claiming fresh =>
      rw [initialized] at fresh
      cases fresh
  | stashes stashing =>
      exact absurd stashing (settled.nobody _ _ _ member)
  | _ =>
      exact settled.of_moved ⟨initialized, tag_eq⟩ rfl fun _ => Activity.noConfusion

theorem settled_start
    {host : Host}
    (settled : host.context.Settled tag)
    (calls : List (List Call)) :
    (start host calls).Settled tag := by
  refine ⟨settled, ?_⟩
  intro index thread request member
  rw [start, List.getElem?_map] at member
  rcases Option.map_eq_some_iff.mp member with ⟨own, _, rfl⟩
  exact ne_stashing_of_free rfl request

theorem Settled.run
    (settled : machine.Settled tag)
    (schedule : List Nat) :
    (machine.run schedule).Settled tag :=
  run_invariant settled_of_turn settled schedule

/-! ## The mark of a first initialization -/

theorem initialized_beginCall
    (initialized : machine.host.context.initialized = true)
    (thread : Thread)
    (call : Call) :
    (machine.beginCall index thread call).host.context.initialized = true := by
  cases call with
  | close record =>
      simp only [beginCall]
      split <;> exact initialized
  | closeScope id =>
      simp only [beginCall]
      split <;> exact initialized
  | _ =>
      exact initialized

/-- No thread takes the mark back, whatever it is about to store. -/
theorem initialized_of_turn
    (initialized : machine.host.context.initialized = true)
    (turn : Turn machine index thread after) :
    after.host.context.initialized = true := by
  cases turn with
  | begins idle next free =>
      exact initialized_beginCall initialized _ _
  | hands dispatching =>
      have same := Emission.hand_context
      simp only [handLine]
      split <;> exact (same _ _ machine.host).symm ▸ initialized
  | aborts announced =>
      simp only [abort]
      split <;> exact initialized
  | claims claiming fresh =>
      rfl
  | stashes stashing =>
      show (Initialization.stash _ machine.host.context).initialized = true
      simp only [Initialization.stash]
      split <;> exact initialized
  | _ =>
      exact initialized

theorem initialized_run
    (initialized : machine.host.context.initialized = true)
    (schedule : List Nat) :
    (machine.run schedule).host.context.initialized = true := by
  refine
    @run_invariant (fun reached => reached.host.context.initialized = true)
      ?_ machine initialized schedule
  exact fun before _ turn => initialized_of_turn before turn

/-- A thread that initializes has set the mark, or found it, with its third step. -/
theorem initialized_run_first
    (host : Host)
    (request : Initialization)
    (others : List (List Call)) :
    ((start host ([.setUp request] :: others)).run
        [0, 0, 0]).host.context.initialized =
      true := by
  cases initialized : host.context.initialized <;>
    simp [run, step, start, advance, acquire?_eq, beginCall, setThread,
      setHolder, setContext, Thread.new, Call.locks, Host.withContext,
      Initialization.installPair, initialized]

end Machine

end Concurrency

namespace Session

open Concurrency

/-- Running threads one after the other is running a schedule. -/
theorem standingsAfter_invariant
    {Invariant : Machine → Prop}
    (preserved :
      ∀ {machine : Machine}, Invariant machine →
        ∀ schedule, Invariant (machine.run schedule))
    {machine : Machine}
    (initial : Invariant machine)
    (indices : List Nat) :
    Invariant (standingsAfter machine indices).1 := by
  induction indices generalizing machine with
  | nil =>
      exact initial
  | cons index rest induction =>
      exact induction (preserved initial _)

theorem concurrent_settled
    {tag : String}
    (threads : List (List Record))
    (loggers : List Logger) :
    (concurrent threads loggers).Preserves (Context.Settled tag) := by
  intro host settled
  exact ((Machine.settled_start settled _).run _).context

theorem concurrentSetUp_settled
    {tag : String}
    (requests : List Initialization) :
    (concurrentSetUp requests).Preserves (Context.Settled tag) := by
  intro host settled
  have final :=
    standingsAfter_invariant Machine.Settled.run
      (Machine.settled_start settled
        (requests.map fun request => [Call.setUp request]))
      (List.range requests.length)
  exact final.context

/-- Threads that initialize leave an initialized context, if there are any. -/
theorem concurrentSetUp_initialized
    (host : Host)
    (request : Initialization)
    (others : List Initialization) :
    (concurrentSetUp (request :: others) host).state.context.initialized =
      true := by
  let machine :=
    Machine.start host
      ((request :: others).map fun request => [Call.setUp request])
  have enough :
      ∃ more,
        (machine.threads[0]?.map machine.enoughSteps).getD 0 = 3 + more := by
    refine ⟨_, Eq.symm (Nat.add_sub_of_le ?_)⟩
    show 3 ≤ machine.enoughSteps (Thread.new [.setUp request])
    simp only [Machine.enoughSteps, Thread.new, List.map_cons, total_cons,
      Machine.stepsBesideLines]
    omega
  rcases enough with ⟨more, enough⟩
  have first :
      (machine.run (List.replicate (3 + more) 0)).host.context.initialized =
        true := by
    rw [← List.replicate_append_replicate, Machine.run, List.foldl_append]
    exact
      Machine.initialized_run (Machine.initialized_run_first host request _) _
  have final :=
    @standingsAfter_invariant
      (fun reached => reached.host.context.initialized = true)
      Machine.initialized_run _ first
      ((List.range others.length).map Nat.succ)
  have same :
      (concurrentSetUp (request :: others) host).state =
        (standingsAfter (machine.run (List.replicate (3 + more) 0))
          ((List.range others.length).map Nat.succ)).1.host := by
    rw [← enough]
    simp only [concurrentSetUp, List.length_cons, List.range_succ_eq_map,
      standingsAfter]
    rfl
  rw [same]
  exact final

end Session

end GatedLog
