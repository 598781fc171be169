import GatedLog.Proofs.Concurrency.Turn

/-!
# Who holds the dispatch lock

After every schedule the holder of the dispatch lock is the one thread whose
activity says so.  In particular no thread holds it that is about to call an
aborter, or in the middle of that call.
-/

namespace GatedLog.Concurrency

namespace Activity

/-- Whether a thread in the middle of this is calling an aborter. -/
def callsAborter : Activity → Bool
  | .aborting _ _ => true
  | .announced _ _ => true
  | _ => false

theorem not_holdsLock_of_callsAborter
    {activity : Activity}
    (calling : activity.callsAborter = true) :
    activity.holdsLock = false := by
  cases activity <;> first | rfl | cases calling

end Activity

namespace Machine

/-- The holder of the lock is the thread whose activity says so. -/
def LockKept (machine : Machine) : Prop :=
  ∀ (index : Nat) (thread : Thread),
    machine.threads[index]? = some thread →
      (thread.activity.holdsLock = true ↔ machine.holder = some index)

variable
    {machine after : Machine}
    {index : Nat}
    {thread next : Thread}

/-- One thread moves on, and the lock stays where it is. -/
theorem LockKept.of_same
    (kept : machine.LockKept)
    (member : machine.threads[index]? = some thread)
    (threads : after.threads = machine.threads.set index next)
    (holder : after.holder = machine.holder)
    (same : next.activity.holdsLock = thread.activity.holdsLock) :
    after.LockKept := by
  intro other otherThread otherMember
  rw [threads] at otherMember
  rw [holder]
  rcases getElem?_set_cases otherMember with ⟨rfl, rfl⟩ | ⟨_, unmoved⟩
  · rw [same]
    exact kept other thread member
  · exact kept other otherThread unmoved

/-- One thread takes the lock, which was free. -/
theorem LockKept.of_acquired
    (kept : machine.LockKept)
    (free : machine.holder = none)
    (threads : after.threads = machine.threads.set index next)
    (holder : after.holder = some index)
    (holds : next.activity.holdsLock = true) :
    after.LockKept := by
  intro other otherThread otherMember
  rw [threads] at otherMember
  rw [holder]
  rcases getElem?_set_cases otherMember with ⟨rfl, rfl⟩ | ⟨different, unmoved⟩
  · exact ⟨fun _ => rfl, fun _ => holds⟩
  · have idle := kept other otherThread unmoved
    rw [free] at idle
    constructor
    · intro holding
      cases idle.mp holding
    · intro equal
      exact absurd (Option.some.inj equal).symm different

/-- One thread releases the lock that it holds. -/
theorem LockKept.of_released
    (kept : machine.LockKept)
    (member : machine.threads[index]? = some thread)
    (held : thread.activity.holdsLock = true)
    (threads : after.threads = machine.threads.set index next)
    (holder : after.holder = none)
    (releases : next.activity.holdsLock = false) :
    after.LockKept := by
  have owner := (kept index thread member).mp held
  intro other otherThread otherMember
  rw [threads] at otherMember
  rw [holder]
  rcases getElem?_set_cases otherMember with ⟨rfl, rfl⟩ | ⟨different, unmoved⟩
  · simp [releases]
  · have idle := kept other otherThread unmoved
    rw [owner] at idle
    constructor
    · intro holding
      exact absurd (Option.some.inj (idle.mp holding)).symm different
    · intro impossible
      cases impossible

theorem holdsLock_afterDelivery (context : Context) (delivery : Delivery) :
    (afterDelivery context delivery).holdsLock = false := by
  unfold afterDelivery
  split
  · rfl
  · split <;> rfl

theorem holdsLock_announcing (host : Host) (aborter : Aborter) (message : String) :
    (announcing host aborter message).holdsLock = false := by
  unfold announcing
  split
  · dsimp only
    split <;> rfl
  · rfl

theorem lockKept_beginCall
    {calls : List Call}
    (kept : machine.LockKept)
    (member : machine.threads[index]? = some thread)
    (idle : thread.activity = .idle)
    (call : Call)
    (free : call.locks = true → machine.holder = none) :
    (machine.beginCall index
      { thread with calls := calls, begun := thread.begun + 1 } call).LockKept := by
  have idleHolds : thread.activity.holdsLock = false := by
    rw [idle]
    rfl
  cases call with
  | close record =>
      simp only [beginCall]
      split
      · exact kept.of_same member rfl rfl idleHolds.symm
      · exact kept.of_same member rfl rfl rfl
  | emit header message =>
      exact kept.of_same member rfl rfl idleHolds.symm
  | setUp request =>
      exact kept.of_acquired (free rfl) rfl rfl rfl
  | closeScope id =>
      simp only [beginCall]
      split
      · exact kept.of_same member rfl rfl rfl
      · exact kept.of_same member rfl rfl rfl
  | _ =>
      exact kept.of_same member rfl rfl rfl

theorem lockKept_of_turn
    (kept : machine.LockKept)
    (member : machine.threads[index]? = some thread)
    (turn : Turn machine index thread after) :
    after.LockKept := by
  cases turn with
  | pauses =>
      exact kept
  | begins idle next free =>
      exact lockKept_beginCall kept member idle _ free
  | acquires waiting free =>
      exact kept.of_acquired free rfl rfl rfl
  | hands dispatching =>
      simp only [handLine]
      split
      · exact kept.of_same member rfl rfl (by rw [dispatching]; rfl)
      · exact kept.of_released member (by rw [dispatching]; rfl) rfl rfl rfl
  | releases dispatched =>
      exact kept.of_released member (by rw [dispatched]; rfl) rfl rfl
        (holdsLock_afterDelivery _ _)
  | announces aborting =>
      exact kept.of_same member rfl rfl
        (by rw [aborting]; exact holdsLock_announcing _ _ _)
  | aborts announced =>
      simp only [abort]
      split
      · exact kept
      · exact kept.of_same member rfl rfl (by rw [announced]; rfl)
  | installs installing =>
      exact kept.of_same member rfl rfl (by rw [installing]; rfl)
  | yields claiming =>
      exact kept.of_same member rfl rfl (by rw [claiming]; rfl)
  | claims claiming =>
      exact kept.of_same member rfl rfl (by rw [claiming]; rfl)
  | stashes stashing =>
      exact kept.of_same member rfl rfl (by rw [stashing]; rfl)
  | leaves leaving =>
      exact kept.of_released member (by rw [leaving]; rfl) rfl rfl rfl
  | reports leaving =>
      exact kept.of_released member (by rw [leaving]; rfl) rfl rfl rfl

theorem lockKept_start (host : Host) (calls : List (List Call)) :
    (start host calls).LockKept := by
  intro index thread member
  rw [start, List.getElem?_map] at member
  rcases Option.map_eq_some_iff.mp member with ⟨own, _, rfl⟩
  simp [Thread.new, Activity.holdsLock, start]

/-- The lock is kept after every schedule. -/
theorem lockKept_run
    (host : Host)
    (calls : List (List Call))
    (schedule : List Nat) :
    ((start host calls).run schedule).LockKept :=
  run_invariant lockKept_of_turn (lockKept_start host calls) schedule

/-- Whoever calls an aborter has released the lock. -/
theorem LockKept.released
    (kept : machine.LockKept)
    (member : machine.threads[index]? = some thread)
    (calling : thread.activity.callsAborter = true) :
    machine.holder ≠ some index := by
  intro holding
  have holds := (kept index thread member).mpr holding
  rw [Activity.not_holdsLock_of_callsAborter calling] at holds
  cases holds

theorem context_handLine
    (delivery : Delivery)
    (text : String)
    (remaining : List String) :
    (machine.handLine index thread delivery text remaining).host.context =
      machine.host.context := by
  simp only [handLine]
  split
  · exact Emission.hand_context delivery.header text machine.host
  · exact Emission.hand_context delivery.header text machine.host

/-- A call that does not take the lock leaves the context alone when it begins. -/
theorem context_beginCall
    {call : Call}
    (lockless : call.locks = false) :
    (machine.beginCall index thread call).host.context =
      machine.host.context := by
  cases call with
  | close record =>
      simp only [beginCall]
      split <;> rfl
  | emit header message =>
      rfl
  | _ =>
      cases lockless

theorem context_abort (aborter : Aborter) (message : String) :
    (machine.abort index thread aborter message).host.context =
      machine.host.context := by
  simp only [abort]
  split <;> rfl

/-- Only the holder of the lock can be in the middle of holding it. -/
theorem LockKept.eq_of_holdsLock
    {other : Nat}
    {otherThread : Thread}
    (kept : machine.LockKept)
    (member : machine.threads[index]? = some thread)
    (otherMember : machine.threads[other]? = some otherThread)
    (holds : thread.activity.holdsLock = true)
    (otherHolds : otherThread.activity.holdsLock = true) :
    otherThread = thread := by
  have owner := (kept index thread member).mp holds
  have otherOwner := (kept other otherThread otherMember).mp otherHolds
  have equal : index = other := Option.some.inj (owner.symm.trans otherOwner)
  subst equal
  exact Option.some.inj (otherMember.symm.trans member)

/-- While a thread hands over lines, no step of any thread changes the context. -/
theorem LockKept.context_of_turn
    {other : Nat}
    {otherThread : Thread}
    {delivery : Delivery}
    {remaining : List String}
    (kept : machine.LockKept)
    (member : machine.threads[index]? = some thread)
    (dispatching : thread.activity = .dispatching delivery remaining)
    (otherMember : machine.threads[other]? = some otherThread)
    (turn : Turn machine other otherThread after) :
    after.host.context = machine.host.context := by
  have holds : thread.activity.holdsLock = true := by
    rw [dispatching]
    rfl
  have owner := (kept index thread member).mp holds
  -- Anyone else who changes the context under the lock would be its second holder.
  have busy :
      ∀ activity, otherThread.activity = activity →
        activity.holdsLock = true →
          activity = .dispatching delivery remaining := by
    rintro activity rfl otherHolds
    rw [kept.eq_of_holdsLock member otherMember holds otherHolds, dispatching]
  cases turn with
  | begins idle next free =>
      apply context_beginCall
      apply eq_false_of_ne_true
      intro locks
      rw [free locks] at owner
      cases owner
  | hands dispatching =>
      exact context_handLine _ _ _
  | aborts announced =>
      exact context_abort _ _
  | installs installing =>
      cases busy _ installing rfl
  | claims claiming =>
      cases busy _ claiming rfl
  | stashes stashing =>
      cases busy _ stashing rfl
  | _ =>
      rfl

/-- So logger and aborter of a dispatch are those that it found under the lock. -/
theorem LockKept.context_step
    {delivery : Delivery}
    {remaining : List String}
    (kept : machine.LockKept)
    (member : machine.threads[index]? = some thread)
    (dispatching : thread.activity = .dispatching delivery remaining)
    (other : Nat) :
    (machine.step other).host.context = machine.host.context := by
  unfold step
  split
  · rfl
  · split
    · rfl
    · next otherThread otherMember =>
        exact kept.context_of_turn member dispatching otherMember
          (machine.advance_turn other otherThread)

end Machine

end GatedLog.Concurrency
