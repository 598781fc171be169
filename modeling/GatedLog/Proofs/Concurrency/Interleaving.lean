import GatedLog.Proofs.Concurrency.Progress
import GatedLog.Proofs.Concurrency.Sorting
import GatedLog.Proofs.Host
import Mathlib.Data.List.Basic

/-!
# What arrives does not depend on the schedule

When all threads are done, the log consists of complete blocks, one for each
message that was to be emitted, and the blocks of a thread stand in the order
of its calls.  So the lines, sorted by threads and calls and without the names
of the loggers, are the same for every schedule.  They are what arrives if the
threads run one after the other.
-/

namespace GatedLog.Concurrency

/-- The line of an entry as it arrived, whatever the name of the logger. -/
def Entry.arrival? (entry : Entry) : Option Line :=
  match entry.happening with
  | .event event =>
      match event.sighting with
      | .line _ line => some line
      | _ => none
  | .threshold _ _ => none

/-- The lines of a log as they arrived, whatever the names of the loggers. -/
def arrivals (log : List Entry) : List Line :=
  log.filterMap Entry.arrival?

/-- The lines of a message as they arrive through a logger with a given fallback. -/
def Delivery.arrivals
    (tag : String)
    (fallback : Channel)
    (delivery : Delivery) :
    List Line :=
  (Text.splitLines delivery.message).map fun text =>
    ⟨{ delivery.header with channel := delivery.header.channel.resolve fallback },
      tag, text⟩

/-- The lines that arrive because of a call, if it emits a message. -/
def Call.arrivals (tag : String) (fallback : Channel) (call : Call) : List Line :=
  call.delivery?.toList.flatMap (Delivery.arrivals tag fallback)

/-! ## Blocks of one thread -/

variable
    {context : Context}
    {fallback : Channel}
    {calls : List (List Call)}
    {machine : Machine}

theorem thread_of_mem_entries
    {block : Block}
    {entry : Entry}
    (member : entry ∈ block.entries) :
    entry.thread = block.thread := by
  rcases List.mem_map.mp member with ⟨text, _, rfl⟩
  rfl

theorem entriesOf_flatMap_entries (thread : Nat) (blocks : List Block) :
    entriesOf thread (blocks.flatMap Block.entries) =
      (blocksOf thread blocks).flatMap Block.entries := by
  induction blocks with
  | nil =>
      rfl
  | cons block rest induction =>
      rw [List.flatMap_cons, entriesOf, List.filter_append, ← entriesOf,
        ← entriesOf, induction]
      by_cases same : block.thread = thread
      · have all : entriesOf thread block.entries = block.entries := by
          rw [entriesOf, List.filter_eq_self]
          intro entry member
          rw [thread_of_mem_entries member, same]
          exact decide_eq_true rfl
        simp [all, blocksOf, same]
      · have none_here : entriesOf thread block.entries = [] := by
          rw [entriesOf, List.filter_eq_nil_iff]
          intro entry member
          rw [thread_of_mem_entries member]
          simpa using same
        simp [none_here, blocksOf, same]

/-- The positions of the calls that deliver something ascend. -/
theorem tasks_pairwise (own : List Call) (reached : Nat) :
    (tasks own reached).Pairwise fun first second => first.1 < second.1 := by
  have ascending :
      (((own.take reached).zipIdx).map Prod.snd).Pairwise (· < ·) := by
    rw [List.zipIdx_map_snd]
    exact List.pairwise_lt_range'
  have positions := List.pairwise_map.mp ascending
  refine positions.filterMap _ ?_
  intro first second earlier firstTask firstFound secondTask secondFound
  rcases Option.map_eq_some_iff.mp firstFound with ⟨_, _, rfl⟩
  rcases Option.map_eq_some_iff.mp secondFound with ⟨_, _, rfl⟩
  exact earlier

/-- Blocks whose tasks ascend have entries in the order of calls. -/
theorem pairwise_call_flatMap_entries
    {blocks : List Block}
    (ascending :
      (blocks.map Block.task).Pairwise fun first second =>
        first.1 < second.1) :
    (blocks.flatMap Block.entries).Pairwise fun first second =>
      first.call ≤ second.call := by
  have call_of_mem :
      ∀ (block : Block) (entry : Entry), entry ∈ block.entries →
        entry.call = block.call := by
    intro block entry member
    rcases List.mem_map.mp member with ⟨text, _, rfl⟩
    rfl
  rw [List.pairwise_flatMap]
  constructor
  · intro block _
    apply List.pairwise_of_forall_mem_list
    intro first firstMember second secondMember
    have same : first.call = second.call := by
      rw [call_of_mem block first firstMember,
        call_of_mem block second secondMember]
    exact Nat.le_of_eq same
  · refine (List.pairwise_map.mp ascending).imp ?_
    intro first second earlier entry member other otherMember
    rw [call_of_mem first entry member, call_of_mem second other otherMember]
    exact Nat.le_of_lt earlier

/-! ## What arrives of a block -/

theorem arrivals_entries
    {block : Block}
    (relays : block.emission.context.logger.Relays fallback) :
    arrivals block.entries =
      block.task.2.arrivals block.emission.context.tag fallback := by
  have each :
      ∀ text,
        (block.entry text).arrival? =
          some
            ⟨{ block.emission.header with
                channel := block.emission.header.channel.resolve fallback },
              block.emission.context.tag, text⟩ := by
    intro text
    simp only [Block.entry, Entry.arrival?, Event.sighting, relays.sighting_eq]
    rfl
  simp only [arrivals, Block.entries, List.filterMap_map, Function.comp_def,
    each]
  simp [Delivery.arrivals, Block.task, List.filterMap_eq_map']

/-- What arrives of all calls of a thread is what arrives of the calls that deliver. -/
theorem flatMap_arrivals_tasks
    (tag : String)
    (fallback : Channel)
    (own : List Call) :
    ((tasks own own.length).flatMap fun task => task.2.arrivals tag fallback) =
      own.flatMap (Call.arrivals tag fallback) := by
  rw [tasks, List.take_length]
  generalize 0 = first
  induction own generalizing first with
  | nil =>
      rfl
  | cons call rest induction =>
      rw [List.zipIdx_cons, List.filterMap_cons, List.flatMap_cons, Call.arrivals,
        ← induction (first + 1)]
      cases delivery : call.delivery? <;> simp [delivery]

/-! ## When all threads are done -/

theorem Account.complete
    {blocks : List Block}
    {unfinished : List Entry}
    (account : Account context fallback calls machine blocks unfinished)
    (done : machine.isDone = true) :
    machine.log = blocks.flatMap Block.entries ∧
      ∀ index own, calls[index]? = some own →
        (blocksOf index blocks).map Block.task = tasks own own.length := by
  have each :
      ∀ (index : Nat) (thread : Thread), machine.threads[index]? = some thread →
        thread.isDone = true := by
    intro index thread member
    exact List.all_eq_true.mp done thread (List.mem_of_getElem? member)
  constructor
  · rw [account.log_eq]
    cases account.beginning with
    | free free =>
        exact List.append_nil _
    | @held index thread _ _ _ member dispatching lines =>
        have last := each index thread member
        simp [Thread.isDone, dispatching] at last
  · intro index own owns
    have inside : index < machine.threads.length := by
      rw [account.threads_length]
      exact (List.getElem?_eq_some_iff.mp owns).1
    have present := List.getElem?_eq_getElem inside
    rcases account.staged index _ present with
      ⟨same, reached, sameOwns, stage, tasks_eq⟩
    rw [owns] at sameOwns
    cases sameOwns
    have last := each index _ present
    generalize machine.threads[index] = thread at stage last
    rw [tasks_eq]
    cases stage with
    | rests =>
        have nothing : own.drop reached = [] := by
          cases rest : own.drop reached with
          | nil =>
              rfl
          | cons call others =>
              rw [rest] at last
              cases last
        have beyond := List.drop_eq_nil_iff.mp nothing
        rw [tasks, tasks, List.take_of_length_le beyond, List.take_length]
    | waits current =>
        cases last
    | hands current =>
        cases last

section Complete

variable
    {blocks : List Block}
    {unfinished : List Entry}
    (account : Account context fallback calls machine blocks unfinished)
    (done : machine.isDone = true)

include account done

theorem Account.bounded :
    ∀ entry ∈ machine.log, entry.thread < calls.length := by
  intro entry member
  rw [(account.complete done).1] at member
  rcases List.mem_flatMap.mp member with ⟨block, blockMember, entryMember⟩
  rw [thread_of_mem_entries entryMember]
  exact (account.sound block blockMember).1

/-- The blocks of a thread ascend by the positions of its calls. -/
theorem Account.ascending (thread : Nat) :
    ((blocksOf thread blocks).map Block.task).Pairwise fun first second =>
      first.1 < second.1 := by
  cases owns : calls[thread]? with
  | some own =>
      rw [(account.complete done).2 thread own owns]
      exact tasks_pairwise own own.length
  | none =>
      have beyond := List.getElem?_eq_none_iff.mp owns
      have nothing : blocksOf thread blocks = [] := by
        rw [blocksOf, List.filter_eq_nil_iff]
        intro block member
        have inside := (account.sound block member).1
        simp only [decide_eq_true_eq]
        omega
      rw [nothing]
      exact List.Pairwise.nil

theorem Account.sortedLog_eq :
    machine.sortedLog =
      (List.range calls.length).flatMap fun thread =>
        (blocksOf thread blocks).flatMap Block.entries := by
  have log_eq := (account.complete done).1
  have ordered :
      ∀ thread,
        (entriesOf thread machine.log).Pairwise fun first second =>
          first.call ≤ second.call := by
    intro thread
    rw [log_eq, entriesOf_flatMap_entries]
    exact pairwise_call_flatMap_entries (account.ascending done thread)
  rw [Machine.sortedLog_eq_flatMap (account.bounded done) ordered]
  simp only [log_eq, entriesOf_flatMap_entries]

theorem Account.arrivals_blocksOf
    {index : Nat}
    {own : List Call}
    (owns : calls[index]? = some own) :
    arrivals ((blocksOf index blocks).flatMap Block.entries) =
      own.flatMap (Call.arrivals context.tag fallback) := by
  have each :
      ∀ block ∈ blocksOf index blocks,
        arrivals block.entries = block.task.2.arrivals context.tag fallback := by
    intro block member
    rcases account.sound block (List.mem_filter.mp member).1 with
      ⟨_, context_eq, relays⟩
    rw [arrivals_entries relays, context_eq]
  have arrived :
      arrivals ((blocksOf index blocks).flatMap Block.entries) =
        (blocksOf index blocks).flatMap fun block =>
          block.task.2.arrivals context.tag fallback := by
    rw [arrivals, List.filterMap_flatMap]
    exact List.flatMap_congr each
  rw [arrived, ← flatMap_arrivals_tasks,
    ← (account.complete done).2 index own owns, List.flatMap_map]

/-- Sorted and without names, the lines are those of one thread after the other. -/
theorem Account.arrivals_sortedLog :
    arrivals machine.sortedLog =
      calls.flatMap fun own =>
        own.flatMap (Call.arrivals context.tag fallback) := by
  have side_by_side :
      calls =
        (List.range calls.length).map fun index => calls[index]?.getD [] := by
    apply List.ext_getElem
    · simp
    · intro index inside _
      simp [List.getElem?_eq_getElem inside]
  have each :
      ∀ index ∈ List.range calls.length,
        arrivals ((blocksOf index blocks).flatMap Block.entries) =
          (calls[index]?.getD []).flatMap
            (Call.arrivals context.tag fallback) := by
    intro index member
    have inside := List.mem_range.mp member
    have owns := List.getElem?_eq_getElem inside
    rw [account.arrivals_blocksOf done owns, owns]
    rfl
  calc
    arrivals machine.sortedLog =
        (List.range calls.length).flatMap fun index =>
          arrivals ((blocksOf index blocks).flatMap Block.entries) := by
      rw [account.sortedLog_eq done, arrivals, List.filterMap_flatMap]
      rfl
    _ =
        (List.range calls.length).flatMap fun index =>
          (calls[index]?.getD []).flatMap
            (Call.arrivals context.tag fallback) :=
      List.flatMap_congr each
    _ =
        ((List.range calls.length).map fun index =>
            calls[index]?.getD []).flatMap fun own =>
          own.flatMap (Call.arrivals context.tag fallback) := by
      rw [List.flatMap_map]
    _ =
        calls.flatMap fun own =>
          own.flatMap (Call.arrivals context.tag fallback) := by
      rw [← side_by_side]

end Complete

/-! ## One thread after the other -/

/-- Threads that run one after the other leave a log in their order. -/
theorem pairwise_thread_run_flatMap
    {Key : Type}
    {order : List (Key × Nat)}
    {steps : Key → Nat}
    (ascending : (order.map Prod.snd).Pairwise (· < ·))
    (sorted :
      machine.log.Pairwise fun first second => first.thread ≤ second.thread)
    (earlier :
      ∀ entry ∈ machine.log, ∀ turn ∈ order, entry.thread ≤ turn.2) :
    (machine.run
        (order.flatMap fun turn =>
          List.replicate (steps turn.1) turn.2)).log.Pairwise
      fun first second => first.thread ≤ second.thread := by
  induction order generalizing machine with
  | nil =>
      exact sorted
  | cons turn rest induction =>
      rcases turn with ⟨key, index⟩
      rcases List.pairwise_cons.mp ascending with ⟨least, rest_ascending⟩
      rcases machine.extendsLog_run_replicate index (steps key) with
        ⟨added, log_eq, ours⟩
      rw [run_flatMap_cons]
      apply induction rest_ascending
      · rw [log_eq, List.pairwise_append]
        refine ⟨sorted, ?_, ?_⟩
        · apply List.pairwise_of_forall_mem_list
          intro first firstMember second secondMember
          exact
            Nat.le_of_eq
              ((ours first firstMember).trans (ours second secondMember).symm)
        · intro entry member other otherMember
          rw [ours other otherMember]
          exact earlier entry member _ List.mem_cons_self
      · intro entry member turn turnMember
        have above : index < turn.2 :=
          least turn.2 (List.mem_map_of_mem turnMember)
        rw [log_eq] at member
        rcases List.mem_append.mp member with before | new
        · have below := earlier entry before _ List.mem_cons_self
          exact Nat.le_of_lt (Nat.lt_of_le_of_lt below above)
        · rw [ours entry new]
          exact Nat.le_of_lt above

/-- Such a log is sorted by threads and calls as it stands. -/
theorem Account.log_eq_sortedLog
    {blocks : List Block}
    {unfinished : List Entry}
    (account : Account context fallback calls machine blocks unfinished)
    (done : machine.isDone = true)
    (sorted :
      machine.log.Pairwise fun first second => first.thread ≤ second.thread) :
    machine.log = machine.sortedLog := by
  have log_eq := (account.complete done).1
  have grouped := filter_thread_lt sorted calls.length
  rw [List.filter_eq_self.mpr (by simpa using account.bounded done)] at grouped
  rw [account.sortedLog_eq done, grouped]
  simp only [log_eq, entriesOf_flatMap_entries]

/-! ## The law -/

/-- What is the same for all schedules of some calls, and what each of them keeps to. -/
structure ScheduleIndependent
    (host : Host)
    (fallback : Channel)
    (calls : List (List Call)) : Prop where
  /-- At every moment all blocks are complete, but for that of the lock's holder. -/
  contiguous :
    ∀ schedule : List Nat,
      ∃ (blocks : List Block) (unfinished : List Entry),
        ((Machine.start host calls).run schedule).log =
            blocks.flatMap Block.entries ++ unfinished ∧
          Unfinished ((Machine.start host calls).run schedule) unfinished ∧
          ∀ block ∈ blocks, block.emission.context.logger.Relays fallback
  /-- In the end every thread has the blocks of its calls, once each and in order. -/
  complete :
    ∀ schedule : List Nat,
      ((Machine.start host calls).run schedule).isDone = true →
        ∃ blocks : List Block,
          ((Machine.start host calls).run schedule).log =
              blocks.flatMap Block.entries ∧
            (∀ block ∈ blocks, block.thread < calls.length) ∧
            ∀ (index : Nat) (own : List Call), calls[index]? = some own →
              (blocksOf index blocks).map Block.task = tasks own own.length
  /-- So, once sorted, what arrives is what arrives without any interleaving. -/
  sorted :
    ∀ schedule : List Nat,
      ((Machine.start host calls).run schedule).isDone = true →
        arrivals ((Machine.start host calls).run schedule).sortedLog =
          arrivals
            ((Machine.start host calls).run
              (Machine.start host calls).sequentialSchedule).log
  /-- Without any interleaving, the lines arrive thread by thread and call by call. -/
  sequential :
    ((Machine.start host calls).run
          (Machine.start host calls).sequentialSchedule).isDone =
        true ∧
      arrivals
          ((Machine.start host calls).run
            (Machine.start host calls).sequentialSchedule).log =
        calls.flatMap fun own =>
          own.flatMap (Call.arrivals host.context.tag fallback)

theorem pairwise_thread_sequentialSchedule
    (host : Host)
    (calls : List (List Call)) :
    ((Machine.start host calls).run
        (Machine.start host calls).sequentialSchedule).log.Pairwise
      fun first second => first.thread ≤ second.thread := by
  have ascending :
      ((Machine.start host calls).threads.zipIdx.map Prod.snd).Pairwise
        (· < ·) := by
    rw [List.zipIdx_map_snd]
    exact List.pairwise_lt_range'
  exact
    pairwise_thread_run_flatMap ascending List.Pairwise.nil
      (by simp [Machine.start])

/-- Of threads that emit and exchange like loggers, no schedule shows in the end. -/
theorem scheduleIndependent_of_plain
    {host : Host}
    (relays : host.context.logger.Relays fallback)
    (plain : ∀ own ∈ calls, ∀ call ∈ own, call.Plain host.context fallback) :
    ScheduleIndependent host fallback calls := by
  have accounted :
      ∀ schedule,
        Accounted host.context fallback calls
          ((Machine.start host calls).run schedule) := by
    intro schedule
    exact Accounted.run plain ⟨[], [], account_start relays calls⟩ schedule
  have done := Machine.isDone_sequentialSchedule relays plain
  have sequential :
      arrivals
          ((Machine.start host calls).run
            (Machine.start host calls).sequentialSchedule).log =
        calls.flatMap fun own =>
          own.flatMap (Call.arrivals host.context.tag fallback) := by
    rcases accounted (Machine.start host calls).sequentialSchedule with
      ⟨blocks, unfinished, account⟩
    rw [account.log_eq_sortedLog done
      (pairwise_thread_sequentialSchedule host calls)]
    exact account.arrivals_sortedLog done
  refine ⟨?_, ?_, ?_, done, sequential⟩
  · intro schedule
    rcases accounted schedule with ⟨blocks, unfinished, account⟩
    exact
      ⟨blocks, unfinished, account.log_eq, account.beginning,
        fun block member => (account.sound block member).2.2⟩
  · intro schedule finished
    rcases accounted schedule with ⟨blocks, unfinished, account⟩
    rcases account.complete finished with ⟨log_eq, each⟩
    exact
      ⟨blocks, log_eq, fun block member => (account.sound block member).1, each⟩
  · intro schedule finished
    rcases accounted schedule with ⟨blocks, unfinished, account⟩
    rw [account.arrivals_sortedLog finished, sequential]

/-- A logger is exchanged in the middle of two emissions, and has to wait for one. -/
theorem scheduleIndependent_of_exchange :
    arrivals
        ((Machine.start
              (Host.around
                (Context.new (.channel "old" .main true) .terminate "app"))
              [[.setLogger (.channel "new" .main true)],
                [.close
                  ((Record.start "a.rs" 1 .unspecified .info none).append
                    "one\ntwo")],
                [.emit ⟨.system, .debug, "b.rs", 2⟩ "three"]]).run
          [1, 2, 1, 1, 2, 0, 1, 1, 0, 2, 2, 2]).sortedLog =
      [⟨⟨.main, .info, "a.rs", 1⟩, "app", "one"⟩,
        ⟨⟨.main, .info, "a.rs", 1⟩, "app", "two"⟩,
        ⟨⟨.system, .debug, "b.rs", 2⟩, "app", "three"⟩] := by
  have law :=
    @scheduleIndependent_of_plain .main
      [[.setLogger (.channel "new" .main true)],
        [.close
          ((Record.start "a.rs" 1 .unspecified .info none).append "one\ntwo")],
        [.emit ⟨.system, .debug, "b.rs", 2⟩ "three"]]
      (Host.around (Context.new (.channel "old" .main true) .terminate "app"))
      (Logger.relays_channel "old" .main)
      (by
        simp only [List.mem_cons, List.not_mem_nil, or_false, forall_eq_or_imp,
          forall_eq]
        exact
          ⟨.setLogger (Logger.relays_channel "new" .main),
            .close rfl rfl, .emit rfl "three"⟩)
  rw [law.sorted _ (by decide), law.sequential.2]
  decide

end GatedLog.Concurrency
