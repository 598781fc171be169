import GatedLog.Proofs.Concurrency.Admission
import GatedLog.Proofs.Concurrency.Writes

/-!
# Only the first to take the lock stores name and threshold

An initialization finds out under the lock whether the context is initialized
already.  It is not exactly if no initialization has taken the lock before, so
the one that stores name and threshold is the first of the history.  Threads may
do anything else meanwhile.
-/

namespace GatedLog

/-- Storing name and threshold leaves the mark alone. -/
theorem Initialization.stash_initialized (request : Initialization) (context : Context) :
    (request.stash context).initialized = context.initialized := by
  simp only [stash]
  split <;> rfl

namespace Concurrency

/-- Whether a call is the initialization that was the first to take the lock. -/
def Leads (history : List Admission) (index position : Nat) : Prop :=
  history.head?.map Admission.place = some (index, position)

/-- Whoever comes next is the first if there is nobody, and changes nothing else. -/
theorem leads_concat_iff
    {history : List Admission}
    {admission : Admission}
    {index position : Nat}
    (other : admission.place ≠ (index, position)) :
    Leads (history ++ [admission]) index position ↔ Leads history index position := by
  cases history with
  | nil =>
      constructor
      · intro leads
        exact absurd (Option.some.inj leads) other
      · intro leads
        cases leads
  | cons first rest =>
      exact Iff.rfl

/-- What a thread asks for in the middle of this, before it has tested the mark. -/
def Activity.untested? : Activity → Option Initialization
  | .installing request => some request
  | .claiming request => some request
  | _ => none

/-- What a call may be about to store, given who took the lock in which order. -/
inductive Bids
    (history : List Admission)
    (initialized : Bool)
    (index position : Nat) : Activity → Prop where
  /-- It is the only one so far, and will not find the mark. -/
  | first
      {request : Initialization}
      {activity : Activity}
      (untested : activity.untested? = some request)
      (fresh : initialized = false)
      (alone : history = [⟨index, position, request⟩]) :
      Bids history initialized index position activity
  /-- It is not the first, and will find the mark. -/
  | late
      {request : Initialization}
      {activity : Activity}
      (untested : activity.untested? = some request)
      (marked : initialized = true)
      (behind : ¬ Leads history index position) :
      Bids history initialized index position activity
  /-- It has set the mark itself. -/
  | stashing
      {request : Initialization}
      (marked : initialized = true)
      (head_eq : history.head? = some ⟨index, position, request⟩) :
      Bids history initialized index position (.stashing request)
  /-- It is not on its way to store anything. -/
  | beside
      {activity : Activity}
      (beyond : activity.awaitsStash = false) :
      Bids history initialized index position activity

namespace Machine

/-- The mark is set by the first of the history, and found by the others. -/
structure Claimed (history : List Admission) (machine : Machine) : Prop where
  bids :
    ∀ (index : Nat) (thread : Thread), machine.threads[index]? = some thread →
      Bids history machine.host.context.initialized index (thread.begun - 1)
        thread.activity
  taken : machine.host.context.initialized = true → history ≠ []
  fresh :
    machine.host.context.initialized = false →
      history = [] ∨
        ∃ (index : Nat) (thread : Thread),
          machine.threads[index]? = some thread ∧ thread.activity.awaitsStash = true

variable
    {host : Host}
    {calls : List (List Call)}
    {history : List Admission}
    {machine after : Machine}
    {index position : Nat}
    {thread next : Thread}
    {request : Initialization}
    {initialized : Bool}

/-- Whoever does not hold the lock is not about to store anything. -/
theorem LockKept.beyond_of_elsewhere
    (kept : machine.LockKept)
    (member : machine.threads[index]? = some thread)
    (elsewhere : machine.holder ≠ some index) :
    thread.activity.awaitsStash = false := by
  apply Activity.awaitsStash_of_free
  apply eq_false_of_ne_true
  intro holds
  exact elsewhere ((kept index thread member).mp holds)

/-- One thread moves on, and the mark is as it was. -/
theorem Claimed.of_moved
    (claimed : Claimed history machine)
    (member : machine.threads[index]? = some thread)
    (threads_eq : after.threads = machine.threads.set index next)
    (initialized_eq :
      after.host.context.initialized = machine.host.context.initialized)
    (bids :
      Bids history machine.host.context.initialized index (next.begun - 1)
        next.activity)
    (awaits :
      machine.host.context.initialized = false →
        thread.activity.awaitsStash = true → next.activity.awaitsStash = true) :
    Claimed history after := by
  have inside := (List.getElem?_eq_some_iff.mp member).1
  refine ⟨?_, ?_, ?_⟩
  · intro other otherThread otherMember
    rw [initialized_eq]
    rw [threads_eq] at otherMember
    rcases getElem?_set_cases otherMember with ⟨rfl, rfl⟩ | ⟨_, unmoved⟩
    · exact bids
    · exact claimed.bids other otherThread unmoved
  · rw [initialized_eq]
    exact claimed.taken
  · rw [initialized_eq]
    intro fresh
    rcases claimed.fresh fresh with nobody | ⟨other, otherThread, found, waiting⟩
    · exact Or.inl nobody
    · right
      by_cases same : other = index
      · subst same
        rw [member] at found
        cases found
        refine ⟨other, next, ?_, awaits fresh waiting⟩
        rw [threads_eq]
        exact List.getElem?_set_self inside
      · refine ⟨other, otherThread, ?_, waiting⟩
        rw [threads_eq, List.getElem?_set_ne (Ne.symm same)]
        exact found

/-- A thread moves on that neither was nor is about to store anything. -/
theorem Claimed.of_beside
    (claimed : Claimed history machine)
    (member : machine.threads[index]? = some thread)
    (threads_eq : after.threads = machine.threads.set index next)
    (initialized_eq :
      after.host.context.initialized = machine.host.context.initialized)
    (before : thread.activity.awaitsStash = false)
    (beyond : next.activity.awaitsStash = false) :
    Claimed history after := by
  refine claimed.of_moved member threads_eq initialized_eq (.beside beyond) ?_
  intro _ awaits
  rw [before] at awaits
  cases awaits

/-- Installing the pair changes nothing about who comes first. -/
theorem bids_of_installing
    (bids : Bids history initialized index position (.installing request)) :
    Bids history initialized index position (.claiming request) := by
  cases bids with
  | first untested fresh alone =>
      exact .first untested fresh alone
  | late untested marked behind =>
      exact .late untested marked behind
  | beside beyond =>
      cases beyond

/-- Whoever does not find the mark is the only one of the history. -/
theorem alone_of_claiming
    (bids : Bids history false index position (.claiming request)) :
    history = [⟨index, position, request⟩] := by
  cases bids with
  | first untested fresh alone =>
      cases untested
      exact alone
  | late untested marked behind =>
      cases marked
  | beside beyond =>
      cases beyond

/-- Whoever finds the mark is not the first. -/
theorem behind_of_claiming
    (bids : Bids history true index position (.claiming request)) :
    ¬ Leads history index position := by
  cases bids with
  | first untested fresh alone =>
      cases fresh
  | late untested marked behind =>
      exact behind
  | beside beyond =>
      cases beyond

/-- Whoever stores name and threshold is the first. -/
theorem head_of_stashing
    (bids : Bids history initialized index position (.stashing request)) :
    initialized = true ∧ history.head? = some ⟨index, position, request⟩ := by
  cases bids with
  | first untested fresh alone =>
      cases untested
  | late untested marked behind =>
      cases untested
  | stashing marked head_eq =>
      exact ⟨marked, head_eq⟩
  | beside beyond =>
      cases beyond

/-- The first sets the mark, and nobody else is under way. -/
theorem Claimed.of_claims
    (claimed : Claimed history machine)
    (kept : machine.LockKept)
    (member : machine.threads[index]? = some thread)
    (claiming : thread.activity = .claiming request)
    (fresh : machine.host.context.initialized = false) :
    Claimed history
      ((machine.setContext
          { machine.host.context with initialized := true }).setThread index
        { thread with activity := .stashing request }) := by
  have bids := claimed.bids index thread member
  rw [claiming, fresh] at bids
  have alone := alone_of_claiming bids
  have holds : thread.activity.holdsLock = true := by
    rw [claiming]
    rfl
  refine ⟨?_, fun _ => alone ▸ List.cons_ne_nil _ _, Bool.noConfusion⟩
  intro other otherThread otherMember
  rcases getElem?_set_cases otherMember with ⟨rfl, rfl⟩ | ⟨different, unmoved⟩
  · exact .stashing rfl (alone ▸ rfl)
  · apply Bids.beside
    apply kept.beyond_of_elsewhere unmoved
    rw [(kept index thread member).mp holds]
    intro same
    exact different (Option.some.inj same).symm

/-- Whoever takes the lock is the first if the context is not initialized. -/
theorem Claimed.of_admitted
    {rest : List Call}
    (reached : Reached (start host calls) history machine)
    (claimed : Claimed history machine)
    (kept : machine.LockKept)
    (member : machine.threads[index]? = some thread)
    (free : machine.holder = none) :
    Claimed (history ++ [⟨index, thread.begun, request⟩])
      ((machine.setHolder (some index)).setThread index
        ⟨.installing request, rest, thread.begun + 1, thread.scopes⟩) := by
  have inside := (List.getElem?_eq_some_iff.mp member).1
  have unheld : ∀ other, machine.holder ≠ some other := by
    intro other
    rw [free]
    exact (Option.some_ne_none other).symm
  have someone : history ++ [⟨index, thread.begun, request⟩] ≠ [] :=
    List.append_ne_nil_of_right_ne_nil history (List.cons_ne_nil _ _)
  refine ⟨?_, fun _ => someone, ?_⟩
  · intro other otherThread otherMember
    rcases getElem?_set_cases otherMember with ⟨rfl, rfl⟩ | ⟨_, unmoved⟩
    · cases marked : machine.host.context.initialized with
      | true =>
          refine .late rfl marked ?_
          -- The first was begun earlier, so it cannot be the call that begins here.
          rcases List.exists_cons_of_ne_nil (claimed.taken marked) with
            ⟨first, others, history_eq⟩
          intro leads
          rw [history_eq] at leads
          have place_eq : first.place = (other, thread.begun) := Option.some.inj leads
          cases first
          cases place_eq
          have earlier :=
            reached.begun_of_found (history_eq ▸ List.mem_cons_self) member
          exact Nat.lt_irrefl _ earlier
      | false =>
          rcases claimed.fresh marked with nobody | ⟨holder, busy, found, awaits⟩
          · exact .first rfl marked (by rw [nobody]; rfl)
          · rw [kept.beyond_of_elsewhere found (unheld holder)] at awaits
            cases awaits
    · exact .beside (kept.beyond_of_elsewhere unmoved (unheld other))
  · intro _
    exact Or.inr ⟨index, _, List.getElem?_set_self inside, rfl⟩

/-- No other turn changes who is the first. -/
theorem Claimed.of_turn
    (claimed : Claimed history machine)
    (kept : machine.LockKept)
    (member : machine.threads[index]? = some thread)
    (turned_down : machine.admits? index thread = none)
    (turn : Turn machine index thread after) :
    Claimed history after := by
  cases turn with
  | pauses =>
      exact claimed
  | begins idle following free =>
      -- An initialization would have taken the lock with this step.
      rcases begins_beginCall idle following with ⟨next, begins⟩
      refine
        claimed.of_beside member begins.threads_eq begins.initialized_eq
          (by rw [idle]; rfl) ?_
      apply eq_false_of_ne_true
      intro awaits
      rcases begins.awaits awaits with ⟨request, rfl⟩
      cases request?_of_not_admits turned_down idle following free
  | installs installing =>
      have bids := claimed.bids _ _ member
      rw [installing] at bids
      exact
        claimed.of_moved member rfl rfl (bids_of_installing bids) fun _ _ => rfl
  | yields claiming marked =>
      refine claimed.of_moved member rfl rfl (.beside rfl) ?_
      intro fresh
      rw [marked] at fresh
      cases fresh
  | claims claiming fresh =>
      exact claimed.of_claims kept member claiming fresh
  | @stashes request stashing =>
      have bids := claimed.bids _ _ member
      rw [stashing] at bids
      have marked := (head_of_stashing bids).1
      refine
        claimed.of_moved member rfl (request.stash_initialized _) (.beside rfl) ?_
      intro fresh
      rw [marked] at fresh
      cases fresh
  | @hands delivery text remaining dispatching =>
      have context_eq :=
        @context_handLine machine index thread delivery text remaining
      have initialized_eq := congrArg Context.initialized context_eq
      simp only [handLine] at initialized_eq ⊢
      split at initialized_eq
      all_goals
        exact
          claimed.of_beside member rfl initialized_eq (by rw [dispatching]; rfl) rfl
  | aborts announced =>
      simp only [abort]
      split
      · exact ⟨claimed.bids, claimed.taken, claimed.fresh⟩
      · exact claimed.of_beside member rfl rfl (by rw [announced]; rfl) rfl
  | releases dispatched =>
      exact
        claimed.of_beside member rfl rfl (by rw [dispatched]; rfl)
          (Activity.awaitsStash_of_free (holdsLock_afterDelivery _ _))
  | announces aborting =>
      exact
        claimed.of_beside member rfl rfl (by rw [aborting]; rfl)
          (Activity.awaitsStash_of_free (holdsLock_announcing _ _ _))
  | acquires waiting free =>
      exact claimed.of_beside member rfl rfl (by rw [waiting]; rfl) rfl
  | leaves leaving =>
      exact claimed.of_beside member rfl rfl (by rw [leaving]; rfl) rfl
  | reports leaving =>
      exact claimed.of_beside member rfl rfl (by rw [leaving]; rfl) rfl

/-- Who is the first is settled under every schedule. -/
theorem Reached.claimed
    (untouched : host.context.initialized = false)
    (reached : Reached (start host calls) history machine) :
    Claimed history machine := by
  refine reached.induction ?_ ?_ ?_
  · refine ⟨?_, ?_, fun _ => Or.inl rfl⟩
    · intro index thread member
      rw [start, List.getElem?_map] at member
      rcases Option.map_eq_some_iff.mp member with ⟨own, _, rfl⟩
      exact .beside rfl
    · intro marked
      exact absurd (untouched.symm.trans marked) Bool.false_ne_true
  · intro history machine index thread request rest reached claimed _ member _ _ free
    have kept := reached.invariant lockKept_of_turn (lockKept_start host calls)
    exact claimed.of_admitted reached kept member free
  · intro history machine after index thread reached claimed _ member turned_down turn
    have kept := reached.invariant lockKept_of_turn (lockKept_start host calls)
    exact claimed.of_turn kept member turned_down turn

end Machine

end Concurrency

end GatedLog
