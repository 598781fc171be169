import GatedLog.Concurrency.Schedule

/-!
# Logs in the order of threads

Sorting a log by threads and calls is stable.  So if the happenings of every
thread stand in the order of its calls already, they come out as they went in,
and the sorted log is theirs, one thread after the other.
-/

namespace GatedLog.Concurrency

namespace Machine

theorem notLater_iff {first second : Entry} :
    notLater first second = true ↔
      first.thread < second.thread ∨
        (first.thread = second.thread ∧ first.call ≤ second.call) := by
  simp [notLater]

theorem notLater_trans
    (first second third : Entry)
    (earlier : notLater first second = true)
    (later : notLater second third = true) :
    notLater first third = true := by
  rw [notLater_iff] at earlier later ⊢
  omega

theorem notLater_total (first second : Entry) :
    (notLater first second || notLater second first) = true := by
  rw [Bool.or_eq_true, notLater_iff, notLater_iff]
  omega

end Machine

/-! ## Entries of one thread -/

/-- The entries of a thread in a log, in order. -/
def entriesOf (thread : Nat) (log : List Entry) : List Entry :=
  log.filter fun entry => entry.thread = thread

/-- What is in order already keeps its order when the whole log is sorted. -/
theorem entriesOf_mergeSort
    {thread : Nat}
    {log : List Entry}
    (ordered :
      (entriesOf thread log).Pairwise fun first second =>
        Machine.notLater first second = true) :
    entriesOf thread (log.mergeSort Machine.notLater) = entriesOf thread log := by
  have kept :
      (entriesOf thread log).Sublist (log.mergeSort Machine.notLater) :=
    List.sublist_mergeSort Machine.notLater_trans Machine.notLater_total
      ordered List.filter_sublist
  have inside :
      (entriesOf thread log).Sublist
        (entriesOf thread (log.mergeSort Machine.notLater)) := by
    have filtered := kept.filter fun entry => entry.thread = thread
    simpa [entriesOf] using filtered
  have permuted :=
    (List.mergeSort_perm log Machine.notLater).filter fun entry =>
      entry.thread = thread
  exact (inside.eq_of_length permuted.length_eq.symm).symm

/-- In a sorted log the entries of a thread follow those of lower threads. -/
theorem filter_thread_lt_succ
    {log : List Entry}
    (sorted : log.Pairwise fun first second => first.thread ≤ second.thread)
    (bound : Nat) :
    (log.filter fun entry => entry.thread < bound + 1) =
      (log.filter fun entry => entry.thread < bound) ++ entriesOf bound log := by
  induction log with
  | nil =>
      rfl
  | cons entry rest induction =>
      rcases List.pairwise_cons.mp sorted with ⟨first, rest_sorted⟩
      have later := induction rest_sorted
      simp only [entriesOf] at later
      rcases Nat.lt_trichotomy entry.thread bound with below | here | above
      · have inside : entry.thread < bound + 1 := by omega
        have apart : ¬entry.thread = bound := by omega
        simp only [entriesOf, List.filter_cons, decide_eq_true inside,
          decide_eq_true below, decide_eq_false apart, if_true, if_false,
          Bool.false_eq_true]
        rw [later, List.cons_append]
      · have inside : entry.thread < bound + 1 := by omega
        have not_below : ¬entry.thread < bound := by omega
        have none_below :
            (rest.filter fun entry => entry.thread < bound) = [] := by
          rw [List.filter_eq_nil_iff]
          intro other member
          have least := first other member
          simp only [decide_eq_true_eq]
          omega
        simp only [entriesOf, List.filter_cons, decide_eq_true inside,
          decide_eq_false not_below, decide_eq_true here, if_true, if_false,
          Bool.false_eq_true]
        rw [later, none_below, List.nil_append, List.nil_append]
      · have nothing :
            ∀ other ∈ entry :: rest, ¬other.thread < bound + 1 := by
          intro other member
          rcases List.mem_cons.mp member with rfl | member
          · omega
          · have least := first other member
            omega
        have outside : ∀ other ∈ entry :: rest, ¬other.thread < bound := by
          intro other member
          have above := nothing other member
          omega
        have elsewhere : ∀ other ∈ entry :: rest, ¬other.thread = bound := by
          intro other member
          have above := nothing other member
          omega
        rw [entriesOf,
          List.filter_eq_nil_iff.mpr (by simpa using nothing),
          List.filter_eq_nil_iff.mpr (by simpa using outside),
          List.filter_eq_nil_iff.mpr (by simpa using elsewhere)]
        rfl

theorem filter_thread_lt
    {log : List Entry}
    (sorted : log.Pairwise fun first second => first.thread ≤ second.thread)
    (bound : Nat) :
    (log.filter fun entry => entry.thread < bound) =
      (List.range bound).flatMap fun thread => entriesOf thread log := by
  induction bound with
  | zero =>
      simp
  | succ bound induction =>
      rw [filter_thread_lt_succ sorted, induction, List.range_succ,
        List.flatMap_append, List.flatMap_singleton]

/-- A log whose threads are each in order is sorted by setting them side by side. -/
theorem Machine.sortedLog_eq_flatMap
    {machine : Machine}
    {bound : Nat}
    (bounded : ∀ entry ∈ machine.log, entry.thread < bound)
    (ordered :
      ∀ thread,
        (entriesOf thread machine.log).Pairwise fun first second =>
          first.call ≤ second.call) :
    machine.sortedLog =
      (List.range bound).flatMap fun thread =>
        entriesOf thread machine.log := by
  have each :
      ∀ thread,
        entriesOf thread machine.sortedLog = entriesOf thread machine.log := by
    intro thread
    apply entriesOf_mergeSort
    refine (ordered thread).imp_of_mem ?_
    intro first second firstMember secondMember calls
    have firstThread := (List.mem_filter.mp firstMember).2
    have secondThread := (List.mem_filter.mp secondMember).2
    simp only [decide_eq_true_eq] at firstThread secondThread
    rw [notLater_iff]
    omega
  have sorted :
      machine.sortedLog.Pairwise fun first second =>
        first.thread ≤ second.thread := by
    have pairs :=
      List.pairwise_mergeSort notLater_trans notLater_total machine.log
    refine pairs.imp ?_
    intro first second earlier
    rw [notLater_iff] at earlier
    omega
  have all : ∀ entry ∈ machine.sortedLog, entry.thread < bound := by
    intro entry member
    exact bounded entry (List.mem_mergeSort.mp member)
  have grouped := filter_thread_lt sorted bound
  rw [List.filter_eq_self.mpr (by simpa using all)] at grouped
  rw [grouped]
  simp only [each]

end GatedLog.Concurrency
