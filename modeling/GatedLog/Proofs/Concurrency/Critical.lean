import GatedLog.Proofs.Concurrency.Admission
import GatedLog.Proofs.Concurrency.Lock
import GatedLog.Proofs.Initialization

/-!
# Initializations take effect in the order in which they take the lock

An initialization changes the context step by step, but always under the lock.
So whenever no thread is in the middle of one, the context is what it would be
if the initializations of the history had been made one after the other.  If
some thread is in the middle of one, that is the last of the history, and the
context is as far from what the earlier ones have left as that thread has come.

This is for threads that exchange logger and aborter by initializations only.
They may still move the threshold by other calls, and then the threshold is not
accounted for.
-/

namespace GatedLog

/-- A context is as expected, but for the threshold if that is not kept. -/
structure Context.Follows (kept : Prop) (expected context : Context) : Prop where
  rest_eq : context = { expected with threshold := context.threshold }
  threshold_eq : kept → context.threshold = expected.threshold

namespace Context.Follows

variable
    {kept : Prop}
    {expected context : Context}

theorem refl (kept : Prop) (context : Context) :
    context.Follows kept context :=
  ⟨rfl, fun _ => rfl⟩

theorem initialized_eq (follows : expected.Follows kept context) :
    context.initialized = expected.initialized := by
  rw [follows.rest_eq]

theorem tag_eq (follows : expected.Follows kept context) :
    context.tag = expected.tag := by
  rw [follows.rest_eq]

theorem logger_eq (follows : expected.Follows kept context) :
    context.logger = expected.logger := by
  rw [follows.rest_eq]

theorem aborter_eq (follows : expected.Follows kept context) :
    context.aborter = expected.aborter := by
  rw [follows.rest_eq]

theorem eq (follows : expected.Follows True context) :
    context = expected := by
  have rest_eq := follows.rest_eq
  rw [follows.threshold_eq trivial] at rest_eq
  exact rest_eq

theorem withMinimum
    (follows : expected.Follows kept context)
    (moved : ¬ kept)
    (severity : Severity) :
    expected.Follows kept (context.withMinimum severity) := by
  refine ⟨?_, fun still => absurd still moved⟩
  rw [follows.rest_eq]
  rfl

theorem installPair
    (follows : expected.Follows kept context)
    (request : Initialization) :
    (request.installPair expected).Follows kept (request.installPair context) := by
  refine ⟨?_, follows.threshold_eq⟩
  rw [follows.rest_eq]
  rfl

theorem claim (follows : expected.Follows kept context) :
    Follows kept
      { expected with initialized := true }
      { context with initialized := true } := by
  refine ⟨?_, follows.threshold_eq⟩
  rw [follows.rest_eq]

theorem stash
    (follows : expected.Follows kept context)
    (request : Initialization) :
    (request.stash expected).Follows kept (request.stash context) := by
  have tag_eq := follows.tag_eq
  constructor
  · rw [follows.rest_eq]
    simp only [Initialization.stash]
    split <;> rfl
  · intro still
    simp only [Initialization.stash]
    split
    · rfl
    · exact follows.threshold_eq still

end Context.Follows

namespace Concurrency

/-- The context after the initializations of a history, made one after the other. -/
def contextAfterAll (origin : Context) (history : List Admission) : Context :=
  history.foldl
    (fun context admission => admission.request.contextAfter context) origin

theorem contextAfterAll_concat
    (origin : Context)
    (history : List Admission)
    (admission : Admission) :
    contextAfterAll origin (history ++ [admission]) =
      admission.request.contextAfter (contextAfterAll origin history) := by
  rw [contextAfterAll, List.foldl_append]
  rfl

namespace Activity

/-- Whether a thread in the middle of this is initializing the context. -/
def initializes : Activity → Bool
  | .installing _ => true
  | .claiming _ => true
  | .stashing _ => true
  | .leaving _ => true
  | _ => false

theorem holdsLock_of_initializes
    {activity : Activity}
    (initializing : activity.initializes = true) :
    activity.holdsLock = true := by
  cases activity <;> first | rfl | cases initializing

end Activity

namespace Call

/-- Whether a call leaves logger and aborter to the initializations. -/
def sparesPair : Call → Bool
  | .setLogger _ => false
  | .setAborter _ => false
  | _ => true

/-- Whether a call leaves the threshold to the initializations. -/
def sparesThreshold : Call → Bool
  | .setThreshold _ => false
  | .openScope _ _ => false
  | .closeScope _ => false
  | _ => true

end Call

/-- How far an initialization has come, and the context meanwhile, from a given one. -/
inductive Critical (kept : Prop) (before : Context) (request : Initialization) :
    Activity → Context → Prop where
  | installing
      {context : Context}
      (follows : before.Follows kept context) :
      Critical kept before request (.installing request) context
  | claiming
      {context : Context}
      (follows : (request.installPair before).Follows kept context) :
      Critical kept before request (.claiming request) context
  | stashing
      {context : Context}
      (fresh : before.initialized = false)
      (follows :
        Context.Follows kept
          { request.installPair before with initialized := true } context) :
      Critical kept before request (.stashing request) context
  | leaving
      {context : Context}
      (follows : (request.contextAfter before).Follows kept context) :
      Critical kept before request (.leaving (request.apply before).1) context

namespace Machine

/-- The context is accounted for by a history of initializations. -/
structure Tracks
    (kept : Prop)
    (origin : Context)
    (history : List Admission)
    (machine : Machine) : Prop where
  quiet :
    (∀ (index : Nat) (thread : Thread), machine.threads[index]? = some thread →
      thread.activity.initializes = false) →
      (contextAfterAll origin history).Follows kept machine.host.context
  critical :
    ∀ (index : Nat) (thread : Thread), machine.threads[index]? = some thread →
      thread.activity.initializes = true →
        ∃ earlier request,
          history = earlier ++ [⟨index, thread.begun - 1, request⟩] ∧
            Critical kept (contextAfterAll origin earlier) request
              thread.activity machine.host.context

variable
    {kept : Prop}
    {origin : Context}
    {history : List Admission}
    {machine after : Machine}
    {index other : Nat}
    {thread next otherThread : Thread}
    {calls : List (List Call)}

/-- Of two threads, at most one is initializing. -/
theorem LockKept.not_initializes
    (lockKept : machine.LockKept)
    (member : machine.threads[index]? = some thread)
    (initializing : thread.activity.initializes = true)
    (otherMember : machine.threads[other]? = some otherThread)
    (different : other ≠ index) :
    otherThread.activity.initializes = false := by
  apply eq_false_of_ne_true
  intro both
  have owner :=
    (lockKept index thread member).mp (Activity.holdsLock_of_initializes initializing)
  have otherOwner :=
    (lockKept other otherThread otherMember).mp (Activity.holdsLock_of_initializes both)
  exact different (Option.some.inj (otherOwner.symm.trans owner))

/-- While the lock is free, no thread is initializing. -/
theorem LockKept.not_initializes_of_free
    (lockKept : machine.LockKept)
    (free : machine.holder = none)
    (member : machine.threads[index]? = some thread) :
    thread.activity.initializes = false := by
  apply eq_false_of_ne_true
  intro initializing
  have owner :=
    (lockKept index thread member).mp (Activity.holdsLock_of_initializes initializing)
  rw [free] at owner
  cases owner

/-- Either no thread is initializing, or one is, and that is the last in the history. -/
theorem Tracks.quiet_or_critical
    (tracks : Tracks kept origin history machine) :
    (contextAfterAll origin history).Follows kept machine.host.context ∨
      ∃ index thread earlier request,
        machine.threads[index]? = some thread ∧
          thread.activity.initializes = true ∧
          history = earlier ++ [⟨index, thread.begun - 1, request⟩] ∧
          Critical kept (contextAfterAll origin earlier) request thread.activity
            machine.host.context := by
  by_cases busy :
      ∃ (index : Nat) (thread : Thread),
        machine.threads[index]? = some thread ∧ thread.activity.initializes = true
  · rcases busy with ⟨index, thread, member, initializing⟩
    rcases tracks.critical index thread member initializing with
      ⟨earlier, request, history_eq, critical⟩
    exact Or.inr
      ⟨index, thread, earlier, request, member, initializing, history_eq, critical⟩
  · left
    apply tracks.quiet
    intro index thread member
    apply eq_false_of_ne_true
    intro initializing
    exact busy ⟨index, thread, member, initializing⟩

/-- A thread moves on that has nothing to do with initializing the context. -/
theorem Tracks.of_apart
    (tracks : Tracks kept origin history machine)
    (member : machine.threads[index]? = some thread)
    (apart : thread.activity.initializes = false)
    (threads_eq : after.threads = machine.threads.set index next)
    (next_apart : next.activity.initializes = false)
    (context_eq : after.host.context = machine.host.context) :
    Tracks kept origin history after := by
  have inside := (List.getElem?_eq_some_iff.mp member).1
  constructor
  · intro quiet
    rw [context_eq]
    apply tracks.quiet
    intro other otherThread otherMember
    by_cases same : other = index
    · rw [same, member] at otherMember
      cases otherMember
      exact apart
    · apply quiet other otherThread
      rw [threads_eq, List.getElem?_set_ne (Ne.symm same)]
      exact otherMember
  · intro other otherThread otherMember initializing
    rw [threads_eq] at otherMember
    rw [context_eq]
    rcases getElem?_set_cases otherMember with ⟨rfl, rfl⟩ | ⟨_, unmoved⟩
    · rw [next_apart] at initializing
      cases initializing
    · exact tracks.critical other otherThread unmoved initializing

/-- A thread moves the threshold, while no thread is initializing. -/
theorem Tracks.of_threshold
    {severity : Severity}
    (tracks : Tracks kept origin history machine)
    (lockKept : machine.LockKept)
    (free : machine.holder = none)
    (moved : ¬ kept)
    (threads_eq : after.threads = machine.threads.set index next)
    (next_apart : next.activity.initializes = false)
    (context_eq : after.host.context = machine.host.context.withMinimum severity) :
    Tracks kept origin history after := by
  have before := tracks.quiet fun _ _ => lockKept.not_initializes_of_free free
  constructor
  · intro _
    rw [context_eq]
    exact before.withMinimum moved severity
  · intro other otherThread otherMember initializing
    rw [threads_eq] at otherMember
    rcases getElem?_set_cases otherMember with ⟨rfl, rfl⟩ | ⟨_, unmoved⟩
    · rw [next_apart] at initializing
      cases initializing
    · rw [lockKept.not_initializes_of_free free unmoved] at initializing
      cases initializing

/-- An initialization goes on, in the middle of which there is no other. -/
theorem Tracks.of_critical
    {earlier : List Admission}
    {request : Initialization}
    (elsewhere :
      ∀ other otherThread, other ≠ index →
        machine.threads[other]? = some otherThread →
          otherThread.activity.initializes = false)
    (inside : index < machine.threads.length)
    (threads_eq : after.threads = machine.threads.set index next)
    (next_initializing : next.activity.initializes = true)
    (history_eq : history = earlier ++ [⟨index, next.begun - 1, request⟩])
    (critical :
      Critical kept (contextAfterAll origin earlier) request
        next.activity after.host.context) :
    Tracks kept origin history after := by
  constructor
  · intro quiet
    have impossible := quiet index next (by
      rw [threads_eq]
      exact List.getElem?_set_self inside)
    rw [next_initializing] at impossible
    cases impossible
  · intro other otherThread otherMember initializing
    rw [threads_eq] at otherMember
    rcases getElem?_set_cases otherMember with ⟨rfl, rfl⟩ | ⟨different, unmoved⟩
    · exact ⟨earlier, request, history_eq, critical⟩
    · rw [elsewhere other otherThread different unmoved] at initializing
      cases initializing

/-- An initialization is over, and no other is in progress. -/
theorem Tracks.of_completed
    (elsewhere :
      ∀ other otherThread, other ≠ index →
        machine.threads[other]? = some otherThread →
          otherThread.activity.initializes = false)
    (threads_eq : after.threads = machine.threads.set index next)
    (next_apart : next.activity.initializes = false)
    (follows :
      (contextAfterAll origin history).Follows kept after.host.context) :
    Tracks kept origin history after := by
  refine ⟨fun _ => follows, ?_⟩
  intro other otherThread otherMember initializing
  rw [threads_eq] at otherMember
  rcases getElem?_set_cases otherMember with ⟨rfl, rfl⟩ | ⟨different, unmoved⟩
  · rw [next_apart] at initializing
    cases initializing
  · rw [elsewhere other otherThread different unmoved] at initializing
    cases initializing

theorem initializes_afterDelivery (context : Context) (delivery : Delivery) :
    (afterDelivery context delivery).initializes = false := by
  unfold afterDelivery
  split
  · rfl
  · split <;> rfl

theorem initializes_announcing (host : Host) (aborter : Aborter) (message : String) :
    (announcing host aborter message).initializes = false := by
  unfold announcing
  split
  · dsimp only
    split <;> rfl
  · rfl

theorem tracks_beginCall
    {call : Call}
    {rest : List Call}
    (tracks : Tracks kept origin history machine)
    (lockKept : machine.LockKept)
    (member : machine.threads[index]? = some thread)
    (idle : thread.activity = .idle)
    (free : call.locks = true → machine.holder = none)
    (no_request : call.request? = none)
    (pair : call.sparesPair = true)
    (threshold : kept → call.sparesThreshold = true) :
    Tracks kept origin history
      (machine.beginCall index
        { thread with calls := rest, begun := thread.begun + 1 } call) := by
  have apart : thread.activity.initializes = false := by
    rw [idle]
    rfl
  cases call with
  | close record =>
      simp only [beginCall]
      split
      · exact tracks.of_apart member apart rfl rfl rfl
      · exact tracks.of_apart member apart rfl apart rfl
  | emit header message =>
      exact tracks.of_apart member apart rfl rfl rfl
  | setThreshold severity =>
      exact tracks.of_threshold lockKept (free rfl)
        (fun still => absurd (threshold still) Bool.false_ne_true) rfl apart rfl
  | openScope id severity =>
      exact tracks.of_threshold lockKept (free rfl)
        (fun still => absurd (threshold still) Bool.false_ne_true) rfl apart rfl
  | closeScope id =>
      simp only [beginCall]
      split
      · exact tracks.of_apart member apart rfl apart rfl
      · exact tracks.of_threshold lockKept (free rfl)
          (fun still => absurd (threshold still) Bool.false_ne_true) rfl apart rfl
  | setUp request =>
      cases no_request
  | setLogger logger =>
      cases pair
  | setAborter aborter =>
      cases pair

/-- The steps of an initialization under the lock, one after the other. -/
theorem tracks_of_critical
    (tracks : Tracks kept origin history machine)
    (lockKept : machine.LockKept)
    (member : machine.threads[index]? = some thread)
    (initializing : thread.activity.initializes = true)
    (turn : Turn machine index thread after) :
    Tracks kept origin history after := by
  have inside := (List.getElem?_eq_some_iff.mp member).1
  have elsewhere :
      ∀ other otherThread, other ≠ index →
        machine.threads[other]? = some otherThread →
          otherThread.activity.initializes = false :=
    fun _ _ different otherMember =>
      lockKept.not_initializes member initializing otherMember different
  rcases tracks.critical index thread member initializing with
    ⟨earlier, request, history_eq, critical⟩
  rcases thread with ⟨activity, own, begun, scopes⟩
  cases critical with
  | installing follows =>
      cases turn with
      | pauses =>
          exact tracks
      | installs installing =>
          cases installing
          exact .of_critical elsewhere inside rfl rfl history_eq
            (.claiming (follows.installPair request))
      | _ =>
          contradiction
  | claiming follows =>
      cases turn with
      | pauses =>
          exact tracks
      | yields claiming initialized =>
          cases claiming
          have found : (contextAfterAll origin earlier).initialized = true :=
            follows.initialized_eq.symm.trans initialized
          have applied := @Initialization.apply_of_initialized request _ found
          have left :
              Critical kept (contextAfterAll origin earlier) request
                (.leaving (request.apply (contextAfterAll origin earlier)).1)
                machine.host.context := by
            apply Critical.leaving
            rw [Initialization.contextAfter, applied]
            exact follows
          rw [applied] at left
          exact .of_critical elsewhere inside rfl rfl history_eq left
      | claims claiming fresh =>
          cases claiming
          have found : (contextAfterAll origin earlier).initialized = false :=
            follows.initialized_eq.symm.trans fresh
          exact .of_critical elsewhere inside rfl rfl history_eq
            (.stashing found follows.claim)
      | _ =>
          contradiction
  | stashing fresh follows =>
      cases turn with
      | pauses =>
          exact tracks
      | stashes stashing =>
          cases stashing
          have applied := @Initialization.apply_of_uninitialized request _ fresh
          have left :
              Critical kept (contextAfterAll origin earlier) request
                (.leaving (request.apply (contextAfterAll origin earlier)).1)
                (request.stash machine.host.context) := by
            apply Critical.leaving
            rw [Initialization.contextAfter, applied]
            exact follows.stash request
          rw [applied] at left
          exact .of_critical elsewhere inside rfl rfl history_eq left
      | _ =>
          contradiction
  | leaving follows =>
      rw [← contextAfterAll_concat origin earlier ⟨index, begun - 1, request⟩,
        ← history_eq] at follows
      cases turn with
      | pauses =>
          exact tracks
      | leaves leaving =>
          exact .of_completed elsewhere rfl rfl follows
      | reports leaving =>
          exact .of_completed elsewhere rfl rfl follows
      | _ =>
          contradiction

/-- Calls of threads that exchange logger and aborter by initializations only. -/
structure SparingCalls (kept : Prop) (calls : List (List Call)) : Prop where
  pair : ∀ own ∈ calls, ∀ call ∈ own, call.sparesPair = true
  threshold : kept → ∀ own ∈ calls, ∀ call ∈ own, call.sparesThreshold = true

theorem tracks_of_turn
    (sparing : SparingCalls kept calls)
    (orderly : Orderly calls machine)
    (lockKept : machine.LockKept)
    (tracks : Tracks kept origin history machine)
    (member : machine.threads[index]? = some thread)
    (turned_down : machine.admits? index thread = none)
    (turn : Turn machine index thread after) :
    Tracks kept origin history after := by
  cases initializing : thread.activity.initializes with
  | true =>
      exact tracks_of_critical tracks lockKept member initializing turn
  | false =>
      cases turn with
      | pauses =>
          exact tracks
      | @begins call rest idle following free =>
          rcases orderly.owns index thread member with ⟨own, found, owns⟩
          have own_member := List.mem_of_getElem? found
          have call_member := List.mem_of_getElem? (owns.getElem?_begun following)
          exact tracks_beginCall tracks lockKept member idle free
            (request?_of_not_admits turned_down idle following free)
            (sparing.pair own own_member call call_member)
            (fun still => sparing.threshold still own own_member call call_member)
      | acquires waiting free =>
          exact tracks.of_apart member initializing rfl rfl rfl
      | hands dispatching =>
          simp only [handLine]
          split
          · exact tracks.of_apart member initializing rfl rfl
              (Emission.hand_context _ _ _)
          · exact tracks.of_apart member initializing rfl rfl
              (Emission.hand_context _ _ _)
      | releases dispatched =>
          exact tracks.of_apart member initializing rfl
            (initializes_afterDelivery _ _) rfl
      | announces aborting =>
          exact tracks.of_apart member initializing rfl
            (initializes_announcing _ _ _) rfl
      | aborts announced =>
          simp only [abort]
          split
          · exact ⟨tracks.quiet, tracks.critical⟩
          · exact tracks.of_apart member initializing rfl rfl rfl
      | installs busy =>
          rw [busy] at initializing
          cases initializing
      | yields busy initialized =>
          rw [busy] at initializing
          cases initializing
      | claims busy fresh =>
          rw [busy] at initializing
          cases initializing
      | stashes busy =>
          rw [busy] at initializing
          cases initializing
      | leaves busy =>
          rw [busy] at initializing
          cases initializing
      | reports busy =>
          rw [busy] at initializing
          cases initializing

variable {host : Host}

theorem Reached.lockKept
    (reached : Reached (start host calls) history machine) :
    machine.LockKept :=
  reached.invariant lockKept_of_turn (lockKept_start host calls)

/-- After every schedule the context is accounted for by the history. -/
theorem Reached.tracks
    (sparing : SparingCalls kept calls)
    (reached : Reached (start host calls) history machine) :
    Tracks kept host.context history machine := by
  refine
    @Reached.induction (start host calls) machine history
      (Tracks kept host.context) ?_ ?_ ?_ reached
  · refine ⟨fun _ => .refl kept host.context, ?_⟩
    intro index thread member initializing
    rw [start, List.getElem?_map] at member
    rcases Option.map_eq_some_iff.mp member with ⟨own, _, rfl⟩
    cases initializing
  · intro history machine index thread request rest reached tracks _ member idle
      following free
    have quiet :
        ∀ (other : Nat) (otherThread : Thread),
          machine.threads[other]? = some otherThread →
            otherThread.activity.initializes = false :=
      fun _ _ => reached.lockKept.not_initializes_of_free free
    exact .of_critical (fun other otherThread _ => quiet other otherThread)
      (List.getElem?_eq_some_iff.mp member).1 rfl rfl rfl
      (.installing (tracks.quiet quiet))
  · intro history machine after index thread reached tracks _ member turned_down turn
    exact tracks_of_turn sparing reached.orderly reached.lockKept tracks member
      turned_down turn

end Machine

end Concurrency

end GatedLog
