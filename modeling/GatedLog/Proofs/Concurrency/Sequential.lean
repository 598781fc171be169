import GatedLog.Proofs.Concurrency.Interleaving
import GatedLog.Session.Step

/-!
# Logs of threads that run one after the other

The calls of a thread ascend in the log, whatever the schedule.  If the threads
take turns only when one of them is through, they ascend as well, so the log is
sorted by threads and calls as it stands.
-/

namespace GatedLog.Concurrency.Machine

/-- No entry is of a call that its thread has not begun, and calls ascend. -/
structure Dated (machine : Machine) : Prop where
  begun :
    ∀ entry ∈ machine.log, ∀ thread : Thread,
      machine.threads[entry.thread]? = some thread →
        entry.call ≤ thread.begun - 1
  ascending :
    machine.log.Pairwise fun first second =>
      first.thread = second.thread → first.call ≤ second.call

variable
    {machine after : Machine}
    {index : Nat}
    {thread : Thread}

theorem Dated.of_turn
    (dated : machine.Dated)
    (member : machine.threads[index]? = some thread)
    (turn : Turn machine index thread after) :
    after.Dated := by
  rcases turned_of_turn member turn with
    rfl | ⟨next, threads_eq, ⟨happenings, log_eq⟩, moves⟩
  · exact dated
  · have later : thread.begun ≤ next.begun := by
      cases moves with
      | goesOn busy calls_eq begun_eq =>
          omega
      | begins idle free calls_eq begun_eq =>
          omega
    have added :
        ∀ entry ∈ happenings.map fun happening =>
            (⟨index, next.begun - 1, happening⟩ : Entry),
          entry.thread = index ∧ entry.call = next.begun - 1 := by
      intro entry entry_member
      rcases List.mem_map.mp entry_member with ⟨happening, _, rfl⟩
      exact ⟨rfl, rfl⟩
    have earlier :
        ∀ entry ∈ machine.log,
          entry.thread = index → entry.call ≤ next.begun - 1 := by
      intro entry entry_member same
      have before := dated.begun entry entry_member thread (same ▸ member)
      omega
    refine ⟨?_, ?_⟩
    · intro entry entry_member other found
      rw [threads_eq] at found
      rw [log_eq] at entry_member
      rcases List.mem_append.mp entry_member with old | new
      · rcases getElem?_set_cases found with ⟨same, rfl⟩ | ⟨_, unmoved⟩
        · exact earlier entry old same
        · exact dated.begun entry old other unmoved
      · rcases added entry new with ⟨same, call_eq⟩
        rcases getElem?_set_cases found with ⟨_, rfl⟩ | ⟨different, _⟩
        · exact Nat.le_of_eq call_eq
        · exact absurd same different
    · rw [log_eq]
      refine List.pairwise_append.mpr ⟨dated.ascending, ?_, ?_⟩
      · apply List.pairwise_of_forall_mem_list
        intro first first_member second second_member _
        exact
          Nat.le_of_eq
            ((added first first_member).2.trans
              (added second second_member).2.symm)
      · intro entry old other new same
        rw [(added other new).2]
        exact earlier entry old (same.trans (added other new).1)

theorem dated_run
    (host : Host)
    (calls : List (List Call))
    (schedule : List Nat) :
    ((start host calls).run schedule).Dated := by
  apply run_invariant
  · intro machine after index thread dated member turn
    exact dated.of_turn member turn
  · exact ⟨fun entry member => (List.not_mem_nil member).elim, .nil⟩

/-- What is in the order of threads is sorted, since calls ascend anyway. -/
theorem Dated.sortedLog_eq
    (dated : machine.Dated)
    (sorted :
      machine.log.Pairwise fun first second => first.thread ≤ second.thread) :
    machine.sortedLog = machine.log := by
  apply List.mergeSort_of_pairwise
  refine (sorted.and dated.ascending).imp ?_
  rintro first second ⟨threads, calls⟩
  rw [notLater_iff]
  rcases Nat.lt_or_eq_of_le threads with earlier | same
  · exact Or.inl earlier
  · exact Or.inr ⟨same, calls same⟩

theorem sortedLog_run_sequentialSchedule
    (host : Host)
    (calls : List (List Call)) :
    let machine := start host calls
    (machine.run machine.sequentialSchedule).sortedLog =
      (machine.run machine.sequentialSchedule).log :=
  (dated_run host calls _).sortedLog_eq
    (pairwise_thread_sequentialSchedule host calls)

/-- Threads whose standings are noted run one after the other, too. -/
theorem exists_run_of_standingsAfter
    (machine : Machine)
    (indices : List Nat) :
    ∃ order : List (Nat × Nat),
      order.map Prod.snd = indices ∧
        (Session.standingsAfter machine indices).1 =
          machine.run
            (order.flatMap fun turn => List.replicate turn.1 turn.2) := by
  induction indices generalizing machine with
  | nil =>
      exact ⟨[], rfl, rfl⟩
  | cons index rest induction =>
      let steps := (machine.threads[index]?.map machine.enoughSteps).getD 0
      rcases induction (machine.run (List.replicate steps index)) with
        ⟨order, order_eq, run_eq⟩
      refine ⟨(steps, index) :: order, by rw [List.map_cons, order_eq], ?_⟩
      exact run_eq.trans (run_flatMap_cons machine (steps, index) order id).symm

theorem sortedLog_standingsAfter
    (host : Host)
    (calls : List (List Call))
    (count : Nat) :
    let final := (Session.standingsAfter (start host calls) (List.range count)).1
    final.sortedLog = final.log := by
  rcases exists_run_of_standingsAfter (start host calls) (List.range count) with
    ⟨order, order_eq, run_eq⟩
  have ascending : (order.map Prod.snd).Pairwise (· < ·) :=
    order_eq ▸ List.pairwise_lt_range
  rw [run_eq]
  apply (dated_run host calls _).sortedLog_eq
  exact
    @pairwise_thread_run_flatMap (start host calls) Nat order id ascending
      List.Pairwise.nil fun entry member => (List.not_mem_nil member).elim

end GatedLog.Concurrency.Machine
