import GatedLog.Proofs.Concurrency.Turn
import Mathlib.Data.List.Induction
import Mathlib.Data.List.Nodup

/-!
# The order in which initializations take the lock

An initialization takes the dispatch lock with its first step, so a schedule
puts the initializations of all threads into an order.  That order is a history
kept beside the machine: no step of a thread depends on it.  For each thread it
has the initializations among the calls that were begun, once each and in
order.
-/

namespace GatedLog.Concurrency

/-- The initialization that a call asks for, if it is one. -/
def Call.request? : Call → Option Initialization
  | .setUp request => some request
  | _ => none

/-- An initialization that has taken the lock, and which call of a thread it is. -/
structure Admission where
  thread : Nat
  call : Nat
  request : Initialization

/-- Which call of which thread an initialization is. -/
def Admission.place (admission : Admission) : Nat × Nat :=
  (admission.thread, admission.call)

namespace Machine

/-- The initialization that takes the lock with the next step of a thread, if any. -/
def admits? (machine : Machine) (index : Nat) (thread : Thread) : Option Admission :=
  match machine.holder, thread.activity, thread.calls with
  | none, .idle, .setUp request :: _ => some ⟨index, thread.begun, request⟩
  | _, _, _ => none

/-- The initialization that takes the lock with the step of a thread number, if any. -/
def admission? (machine : Machine) (index : Nat) : Option Admission :=
  if machine.ended then
    none
  else
    machine.threads[index]?.bind (machine.admits? index)

/-- The initializations that take the lock in the course of a schedule, in order. -/
def admissions (machine : Machine) : List Nat → List Admission
  | [] => []
  | index :: rest =>
      (machine.admission? index).toList ++ (machine.step index).admissions rest

variable
    {origin machine after : Machine}
    {history : List Admission}
    {index : Nat}
    {thread next : Thread}
    {calls : List (List Call)}

theorem run_append (machine : Machine) (earlier later : List Nat) :
    machine.run (earlier ++ later) = (machine.run earlier).run later :=
  List.foldl_append

theorem admissions_append (machine : Machine) (earlier later : List Nat) :
    machine.admissions (earlier ++ later) =
      machine.admissions earlier ++ (machine.run earlier).admissions later := by
  induction earlier generalizing machine with
  | nil =>
      rfl
  | cons index rest induction =>
      rw [List.cons_append, admissions, induction, admissions, List.append_assoc]
      rfl

/-- What an initialization does that takes the lock. -/
theorem advance_of_admits
    {admission : Admission}
    (admits : machine.admits? index thread = some admission) :
    ∃ request calls,
      thread.activity = .idle ∧
        thread.calls = .setUp request :: calls ∧
        machine.holder = none ∧
        admission = ⟨index, thread.begun, request⟩ ∧
        machine.advance index thread =
          (machine.setHolder (some index)).setThread index
            ⟨.installing request, calls, thread.begun + 1, thread.scopes⟩ := by
  unfold admits? at admits
  split at admits
  · next request calls free idle next =>
      cases admits
      refine ⟨request, calls, idle, next, free, rfl, ?_⟩
      simp only [advance, idle, next, acquire?_of_free free]
      rfl
  · cases admits

/-- A call that is begun without taking the lock for it is no initialization. -/
theorem request?_of_not_admits
    {call : Call}
    {rest : List Call}
    (turned_down : machine.admits? index thread = none)
    (idle : thread.activity = .idle)
    (next : thread.calls = call :: rest)
    (free : call.locks = true → machine.holder = none) :
    call.request? = none := by
  cases call with
  | setUp request =>
      simp [admits?, idle, next, free rfl] at turned_down
  | _ =>
      rfl

/-- Some schedule leads from a machine to another, with this history. -/
def Reached (origin : Machine) (history : List Admission) (machine : Machine) : Prop :=
  ∃ schedule,
    origin.admissions schedule = history ∧ origin.run schedule = machine

theorem reached_run (origin : Machine) (schedule : List Nat) :
    Reached origin (origin.admissions schedule) (origin.run schedule) :=
  ⟨schedule, rfl, rfl⟩

/--
What holds initially, and is preserved when an initialization takes the lock and
by every other turn, holds of every machine that is reached.
-/
theorem Reached.induction
    {Invariant : List Admission → Machine → Prop}
    (initial : Invariant [] origin)
    (admits :
      ∀ {history : List Admission} {machine : Machine} {index : Nat}
          {thread : Thread} {request : Initialization} {rest : List Call},
        Reached origin history machine →
        Invariant history machine →
        machine.ended = false →
        machine.threads[index]? = some thread →
        thread.activity = .idle →
        thread.calls = .setUp request :: rest →
        machine.holder = none →
        Invariant (history ++ [⟨index, thread.begun, request⟩])
          ((machine.setHolder (some index)).setThread index
            ⟨.installing request, rest, thread.begun + 1, thread.scopes⟩))
    (turns :
      ∀ {history : List Admission} {machine after : Machine} {index : Nat}
          {thread : Thread},
        Reached origin history machine →
        Invariant history machine →
        machine.ended = false →
        machine.threads[index]? = some thread →
        machine.admits? index thread = none →
        Turn machine index thread after →
        Invariant history after)
    (reached : Reached origin history machine) :
    Invariant history machine := by
  rcases reached with ⟨schedule, rfl, rfl⟩
  induction schedule using List.reverseRecOn with
  | nil =>
      exact initial
  | append_singleton earlier index induction =>
      rw [admissions_append, run_append]
      have before := reached_run origin earlier
      generalize origin.admissions earlier = history at *
      generalize origin.run earlier = machine at *
      simp only [admissions, List.append_nil, run, List.foldl_cons, List.foldl_nil,
        admission?, step]
      cases ended : machine.ended with
      | true =>
          simpa using induction
      | false =>
          cases member : machine.threads[index]? with
          | none =>
              simpa using induction
          | some thread =>
              cases admitted : machine.admits? index thread with
              | none =>
                  have turned :=
                    turns before induction ended member admitted
                      (machine.advance_turn index thread)
                  simpa [admitted] using turned
              | some admission =>
                  rcases advance_of_admits admitted with
                    ⟨request, rest, idle, next, free, rfl, advanced⟩
                  have taken := admits before induction ended member idle next free
                  simpa [admitted, advanced] using taken

end Machine

/-! ## Threads and their calls -/

namespace Machine

variable
    {machine after : Machine}
    {index : Nat}
    {thread next : Thread}
    {calls : List (List Call)}

/-- A thread has begun the first of its own calls, and is in the middle of the last. -/
structure Owns (own : List Call) (thread : Thread) : Prop where
  calls_eq : thread.calls = own.drop thread.begun
  begun_le : thread.begun ≤ own.length
  busy : thread.activity ≠ .idle → 0 < thread.begun

theorem Owns.of_moves
    {own : List Call}
    (owns : Owns own thread)
    (moves : thread.Moves machine.holder next) :
    Owns own next := by
  cases moves with
  | goesOn busy calls_eq begun_eq =>
      refine ⟨?_, ?_, fun _ => ?_⟩
      · rw [calls_eq, begun_eq]
        exact owns.calls_eq
      · rw [begun_eq]
        exact owns.begun_le
      · rw [begun_eq]
        exact owns.busy busy
  | @begins call idle free calls_eq begun_eq =>
      have remaining : own.drop thread.begun = call :: next.calls :=
        owns.calls_eq.symm.trans calls_eq
      refine ⟨?_, ?_, fun _ => ?_⟩
      · rw [begun_eq, ← List.tail_drop, remaining]
        rfl
      · have more := congrArg List.length remaining
        rw [List.length_drop, List.length_cons] at more
        omega
      · omega

/-- The call that a thread begins is the next of its own. -/
theorem Owns.getElem?_begun
    {own rest : List Call}
    {call : Call}
    (owns : Owns own thread)
    (following : thread.calls = call :: rest) :
    own[thread.begun]? = some call := by
  rw [← List.head?_drop, ← owns.calls_eq, following]
  rfl

/-- Threads make their own calls, and the log has entries of begun calls only. -/
structure Orderly (calls : List (List Call)) (machine : Machine) : Prop where
  length_eq : machine.threads.length = calls.length
  owns :
    ∀ (index : Nat) (thread : Thread), machine.threads[index]? = some thread →
      ∃ own, calls[index]? = some own ∧ Owns own thread
  bounded :
    ∀ entry ∈ machine.log,
      ∃ thread,
        machine.threads[entry.thread]? = some thread ∧ entry.call < thread.begun

theorem Orderly.owns_of_found
    {own : List Call}
    (orderly : Orderly calls machine)
    (member : machine.threads[index]? = some thread)
    (found : calls[index]? = some own) :
    Owns own thread := by
  rcases orderly.owns index thread member with ⟨same, same_found, owns⟩
  rw [found] at same_found
  cases same_found
  exact owns

theorem Orderly.of_turn
    (orderly : Orderly calls machine)
    (member : machine.threads[index]? = some thread)
    (turn : Turn machine index thread after) :
    Orderly calls after := by
  rcases turned_of_turn member turn with
    rfl | ⟨next, threads_eq, ⟨happenings, log_eq⟩, moves⟩
  · exact orderly
  have inside := (List.getElem?_eq_some_iff.mp member).1
  have moved : after.threads[index]? = some next := by
    rw [threads_eq]
    exact List.getElem?_set_self inside
  rcases orderly.owns index thread member with ⟨own, found, owns⟩
  have next_owns := owns.of_moves moves
  have positive : 0 < next.begun := by
    cases moves with
    | goesOn busy calls_eq begun_eq =>
        rw [begun_eq]
        exact owns.busy busy
    | begins idle free calls_eq begun_eq =>
        omega
  have not_less : thread.begun ≤ next.begun := by
    cases moves <;> omega
  refine ⟨?_, ?_, ?_⟩
  · rw [threads_eq, List.length_set]
    exact orderly.length_eq
  · intro other otherThread otherMember
    rw [threads_eq] at otherMember
    rcases getElem?_set_cases otherMember with ⟨rfl, rfl⟩ | ⟨_, unmoved⟩
    · exact ⟨own, found, next_owns⟩
    · exact orderly.owns other otherThread unmoved
  · intro entry entryMember
    rw [log_eq] at entryMember
    rcases List.mem_append.mp entryMember with earlier | added
    · rcases orderly.bounded entry earlier with ⟨owner, ownerMember, less⟩
      by_cases same : entry.thread = index
      · rw [same, member] at ownerMember
        cases ownerMember
        exact ⟨next, same ▸ moved, by omega⟩
      · refine ⟨owner, ?_, less⟩
        rw [threads_eq, List.getElem?_set_ne (Ne.symm same)]
        exact ownerMember
    · rcases List.mem_map.mp added with ⟨happening, _, rfl⟩
      exact ⟨next, moved, Nat.sub_lt positive Nat.one_pos⟩

theorem orderly_start (host : Host) (calls : List (List Call)) :
    Orderly calls (start host calls) := by
  refine ⟨?_, ?_, ?_⟩
  · rw [start, List.length_map]
  · intro index thread member
    rw [start, List.getElem?_map] at member
    rcases Option.map_eq_some_iff.mp member with ⟨own, found, rfl⟩
    exact ⟨own, found, rfl, Nat.zero_le _, fun busy => absurd rfl busy⟩
  · simp [start]

/-- What every turn preserves holds of every machine that is reached. -/
theorem Reached.invariant
    {Invariant : Machine → Prop}
    {origin : Machine}
    {history : List Admission}
    (preserved :
      ∀ {machine after : Machine} {index : Nat} {thread : Thread},
        Invariant machine →
        machine.threads[index]? = some thread →
        Turn machine index thread after →
        Invariant after)
    (initial : Invariant origin)
    (reached : Reached origin history machine) :
    Invariant machine := by
  rcases reached with ⟨schedule, _, rfl⟩
  exact run_invariant preserved initial schedule

variable
    {host : Host}
    {history : List Admission}

theorem Reached.orderly (reached : Reached (start host calls) history machine) :
    Orderly calls machine :=
  reached.invariant Orderly.of_turn (orderly_start host calls)

/-! ## What is in the history -/

/-- The initializations among the first calls of a thread. -/
def admissionsOf (index : Nat) (own : List Call) (reached : Nat) : List Admission :=
  (own.take reached).zipIdx.filterMap fun (call, position) =>
    call.request?.map fun request => ⟨index, position, request⟩

theorem admissionsOf_succ
    {own : List Call}
    {reached : Nat}
    {call : Call}
    (next : own[reached]? = some call)
    (index : Nat) :
    admissionsOf index own (reached + 1) =
      admissionsOf index own reached ++
        (call.request?.map fun request => ⟨index, reached, request⟩).toList :=
  filterMap_zipIdx_take_succ next _

/-- The history has the initializations that a thread has begun, once each and in order. -/
def Recorded
    (calls : List (List Call))
    (history : List Admission)
    (machine : Machine) : Prop :=
  ∀ (index : Nat) (thread : Thread) (own : List Call),
    machine.threads[index]? = some thread →
      calls[index]? = some own →
        (history.filter fun admission => admission.thread = index) =
          admissionsOf index own thread.begun

theorem Reached.recorded (reached : Reached (start host calls) history machine) :
    Recorded calls history machine := by
  refine reached.induction ?_ ?_ ?_
  · intro index thread own member _
    rw [start, List.getElem?_map] at member
    rcases Option.map_eq_some_iff.mp member with ⟨same, _, rfl⟩
    rfl
  · intro history machine index thread request rest reached recorded _ member idle
      following free other otherThread own otherMember found
    rw [List.filter_append]
    rcases getElem?_set_cases otherMember with ⟨rfl, rfl⟩ | ⟨different, unmoved⟩
    · have owns := reached.orderly.owns_of_found member found
      rw [admissionsOf_succ (owns.getElem?_begun following),
        recorded other thread own member found]
      simp [Call.request?]
    · rw [recorded other otherThread own unmoved found]
      simp [different.symm]
  · intro history machine after index thread reached recorded _ member turned_down
      turn other otherThread own otherMember found
    rcases turned_of_turn member turn with rfl | ⟨next, threads_eq, _, moves⟩
    · exact recorded other otherThread own otherMember found
    rw [threads_eq] at otherMember
    rcases getElem?_set_cases otherMember with ⟨rfl, rfl⟩ | ⟨_, unmoved⟩
    · have before := recorded other thread own member found
      cases moves with
      | goesOn busy calls_eq begun_eq =>
          rw [begun_eq]
          exact before
      | begins idle free calls_eq begun_eq =>
          have owns := reached.orderly.owns_of_found member found
          rw [begun_eq, admissionsOf_succ (owns.getElem?_begun calls_eq), before,
            request?_of_not_admits turned_down idle calls_eq free]
          simp
    · exact recorded other otherThread own unmoved found

/-- Every initialization in the history is the call of a thread that it says it is. -/
theorem Reached.call_of_mem
    {admission : Admission}
    (reached : Reached (start host calls) history machine)
    (member : admission ∈ history) :
    ∃ own,
      calls[admission.thread]? = some own ∧
        own[admission.call]? = some (.setUp admission.request) := by
  have sound :
      ∀ admission ∈ history,
        ∃ own,
          calls[admission.thread]? = some own ∧
            own[admission.call]? = some (.setUp admission.request) := by
    refine
      @Reached.induction (start host calls) machine history
        (fun history _ =>
          ∀ admission ∈ history,
            ∃ own,
              calls[admission.thread]? = some own ∧
                own[admission.call]? = some (.setUp admission.request))
        (by simp) ?_ (fun _ sound _ _ _ _ => sound) reached
    intro history machine index thread request rest reached sound _ threadMember _
      following _ admission admissionMember
    rcases List.mem_append.mp admissionMember with earlier | last
    · exact sound admission earlier
    · rw [List.mem_singleton.mp last]
      rcases reached.orderly.owns index thread threadMember with ⟨own, found, owns⟩
      exact ⟨own, found, owns.getElem?_begun following⟩
  exact sound admission member

theorem call_lt_of_mem_admissionsOf
    {own : List Call}
    {reached : Nat}
    {admission : Admission}
    (member : admission ∈ admissionsOf index own reached) :
    admission.call < reached := by
  rcases List.mem_filterMap.mp member with ⟨⟨call, position⟩, inside, asked⟩
  rcases Option.map_eq_some_iff.mp asked with ⟨request, _, rfl⟩
  have less := List.snd_lt_of_mem_zipIdx inside
  have most := List.length_take_le reached own
  dsimp only at less ⊢
  omega

/-- Every initialization in the history was begun. -/
theorem Reached.begun_of_mem
    {admission : Admission}
    (reached : Reached (start host calls) history machine)
    (member : admission ∈ history) :
    ∃ thread,
      machine.threads[admission.thread]? = some thread ∧
        admission.call < thread.begun := by
  rcases reached.call_of_mem member with ⟨own, found, _⟩
  have inside : admission.thread < machine.threads.length := by
    rw [reached.orderly.length_eq]
    exact (List.getElem?_eq_some_iff.mp found).1
  have thread_found := List.getElem?_eq_getElem inside
  refine ⟨_, thread_found, ?_⟩
  have ours :
      admission ∈ history.filter fun other => other.thread = admission.thread :=
    List.mem_filter.mpr ⟨member, decide_eq_true rfl⟩
  rw [reached.recorded admission.thread _ own thread_found found] at ours
  exact call_lt_of_mem_admissionsOf ours

theorem Reached.begun_of_found
    {admission : Admission}
    (reached : Reached (start host calls) history machine)
    (member : admission ∈ history)
    (found : machine.threads[admission.thread]? = some thread) :
    admission.call < thread.begun := by
  rcases reached.begun_of_mem member with ⟨same, same_found, begun⟩
  rw [found] at same_found
  cases same_found
  exact begun

/-- No call is in the history twice. -/
theorem Reached.nodup (reached : Reached (start host calls) history machine) :
    (history.map Admission.place).Nodup := by
  refine
    @Reached.induction (start host calls) machine history
      (fun history _ => (history.map Admission.place).Nodup)
      List.nodup_nil ?_ (fun _ nodup _ _ _ _ => nodup) reached
  intro history machine index thread request rest reached nodup _ member _ _ _
  rw [List.map_append, List.map_singleton, ← List.concat_eq_append]
  apply List.Nodup.concat _ nodup
  intro again
  rcases List.mem_map.mp again with ⟨admission, admission_member, same⟩
  cases admission
  cases same
  exact Nat.lt_irrefl _ (reached.begun_of_found admission_member member)

/-- So a call has one position in the history at most. -/
theorem Reached.eq_of_place
    {earlier later others after : List Admission}
    {admission same : Admission}
    (reached : Reached (start host calls) history machine)
    (history_eq : history = earlier ++ admission :: later)
    (again : history = others ++ same :: after)
    (place_eq : same.place = admission.place) :
    others = earlier ∧ same = admission := by
  have nodup := reached.nodup
  rw [history_eq, List.map_append, List.map_cons, List.nodup_middle,
    List.nodup_cons, List.mem_append, not_or] at nodup
  have equal := history_eq.symm.trans again
  have places_equal := congrArg (List.map Admission.place) equal
  simp only [List.map_append, List.map_cons, place_eq] at places_equal
  rw [List.append_cons_inj_of_notMem nodup.1.1 nodup.1.2] at places_equal
  have lengths := congrArg List.length places_equal.1
  rw [List.length_map, List.length_map] at lengths
  rcases List.append_inj equal lengths with ⟨earlier_eq, rest_eq⟩
  cases rest_eq
  exact ⟨earlier_eq.symm, rfl⟩

end Machine

end GatedLog.Concurrency
