import GatedLog.Proofs.Concurrency.Lock
import GatedLog.Proofs.Concurrency.Relay
import GatedLog.Proofs.Emission

/-!
# The blocks that a log is made of

Threads emit messages that do not abort, and exchange loggers of one kind.
Then at every moment, under every schedule, the log consists of complete blocks
and the beginning of one more, which is that of the holder of the lock.  The
blocks of a thread are those of the calls that it is over with, in order.
-/

namespace GatedLog.Concurrency

/-- The lines of one emission, by one call of one thread. -/
structure Block where
  thread : Nat
  call : Nat
  emission : Emission

namespace Block

/-- The entry of one line of a block. -/
def entry (block : Block) (text : String) : Entry :=
  ⟨block.thread, block.call,
    .event
      (.line block.emission.context.logger
        (Emission.lineOf block.emission.context block.emission.header text)
        [])⟩

/-- The entries of all lines of a block, in order. -/
def entries (block : Block) : List Entry :=
  (Text.splitLines block.emission.message).map block.entry

/-- The call that a block comes from, with what it delivers. -/
def task (block : Block) : Nat × Delivery :=
  (block.call, ⟨block.emission.header, block.emission.message, none⟩)

end Block

/-- What the first calls of a thread deliver, each with the position of the call. -/
def tasks (own : List Call) (reached : Nat) : List (Nat × Delivery) :=
  (own.take reached).zipIdx.filterMap fun (call, position) =>
    call.delivery?.map fun delivery => (position, delivery)

theorem tasks_succ
    {own : List Call}
    {reached : Nat}
    {call : Call}
    (next : own[reached]? = some call) :
    tasks own (reached + 1) =
      tasks own reached ++
        (call.delivery?.map fun delivery => (reached, delivery)).toList :=
  filterMap_zipIdx_take_succ next _

/-- How far a thread has come that only makes plain calls. -/
inductive Stage (own : List Call) : Nat → Thread → Prop where
  | rests
      {reached : Nat}
      {scopes : List (String × Severity)} :
      Stage own reached ⟨.idle, own.drop reached, reached, scopes⟩
  | waits
      {reached : Nat}
      {scopes : List (String × Severity)}
      {delivery : Delivery}
      (current : (own[reached]?).bind Call.delivery? = some delivery) :
      Stage own reached
        ⟨.waiting delivery, own.drop (reached + 1), reached + 1, scopes⟩
  | hands
      {reached : Nat}
      {scopes : List (String × Severity)}
      {delivery : Delivery}
      {remaining : List String}
      (current : (own[reached]?).bind Call.delivery? = some delivery) :
      Stage own reached
        ⟨.dispatching delivery remaining, own.drop (reached + 1),
          reached + 1, scopes⟩

/-- The beginning of a block that the holder of the lock has handed over so far. -/
inductive Unfinished (machine : Machine) : List Entry → Prop where
  | free
      (free : machine.holder = none) :
      Unfinished machine []
  | held
      {index : Nat}
      {thread : Thread}
      {delivery : Delivery}
      {handed remaining : List String}
      (member : machine.threads[index]? = some thread)
      (dispatching : thread.activity = .dispatching delivery remaining)
      (lines : Text.splitLines delivery.message = handed ++ remaining) :
      Unfinished machine
        (handed.map
          (Block.entry
            ⟨index, thread.begun - 1,
              ⟨machine.host.context, delivery.header, delivery.message⟩⟩))

/-- The blocks of one thread, in order. -/
def blocksOf (thread : Nat) (blocks : List Block) : List Block :=
  blocks.filter fun block => block.thread = thread

/-- Every thread has come to some stage, and its blocks are those before it. -/
def Staged
    (calls : List (List Call))
    (threads : List Thread)
    (blocks : List Block) : Prop :=
  ∀ (index : Nat) (thread : Thread), threads[index]? = some thread →
    ∃ own reached,
      calls[index]? = some own ∧
        Stage own reached thread ∧
          (blocksOf index blocks).map Block.task = tasks own reached

/-- The account of a log that was begun in a given context by given calls. -/
structure Account
    (context : Context)
    (fallback : Channel)
    (calls : List (List Call))
    (machine : Machine)
    (blocks : List Block)
    (unfinished : List Entry) : Prop where
  running : machine.ended = false
  context_eq :
    machine.host.context =
      { context with logger := machine.host.context.logger }
  relays : machine.host.context.logger.Relays fallback
  kept : machine.LockKept
  threads_length : machine.threads.length = calls.length
  staged : Staged calls machine.threads blocks
  sound :
    ∀ block ∈ blocks,
      block.thread < calls.length ∧
        block.emission.context =
            { context with logger := block.emission.context.logger } ∧
          block.emission.context.logger.Relays fallback
  beginning : Unfinished machine unfinished
  log_eq : machine.log = blocks.flatMap Block.entries ++ unfinished

variable
    {context : Context}
    {fallback : Channel}
    {calls : List (List Call)}
    {machine after : Machine}
    {blocks added : List Block}
    {unfinished : List Entry}
    {index : Nat}
    {thread next : Thread}

/-- One thread moves on to a later stage, with all the blocks that belong to it. -/
theorem Staged.set
    {own : List Call}
    {reached : Nat}
    (staged : Staged calls machine.threads blocks)
    (owns : calls[index]? = some own)
    (stage : Stage own reached next)
    (ours : ∀ block ∈ added, block.thread = index)
    (tasks_eq :
      (blocksOf index (blocks ++ added)).map Block.task = tasks own reached) :
    Staged calls (machine.threads.set index next) (blocks ++ added) := by
  intro other otherThread otherMember
  rcases Machine.getElem?_set_cases otherMember with
    ⟨rfl, rfl⟩ | ⟨different, unmoved⟩
  · exact ⟨own, reached, owns, stage, tasks_eq⟩
  · have elsewhere : blocksOf other added = [] := by
      rw [blocksOf, List.filter_eq_nil_iff]
      intro block member
      rw [ours block member]
      simpa using different.symm
    have same : blocksOf other (blocks ++ added) = blocksOf other blocks := by
      rw [blocksOf, List.filter_append, ← blocksOf, ← blocksOf, elsewhere,
        List.append_nil]
    rw [same]
    exact staged other otherThread unmoved

theorem Staged.move
    {own : List Call}
    {reached : Nat}
    (staged : Staged calls machine.threads blocks)
    (owns : calls[index]? = some own)
    (stage : Stage own reached next)
    (tasks_eq : (blocksOf index blocks).map Block.task = tasks own reached) :
    Staged calls (machine.threads.set index next) blocks := by
  have none_added : ∀ block ∈ ([] : List Block), block.thread = index := by
    simp
  have moved := staged.set owns stage none_added (by simpa using tasks_eq)
  rw [List.append_nil] at moved
  exact moved

/-- What the holder has handed over stays when another thread moves on. -/
theorem Unfinished.of_moved
    (before : Unfinished machine unfinished)
    (member : machine.threads[index]? = some thread)
    (elsewhere : thread.activity.holdsLock = false)
    (threads : after.threads = machine.threads.set index next)
    (holder : after.holder = machine.holder)
    (context_eq : after.host.context = machine.host.context) :
    Unfinished after unfinished := by
  cases before with
  | free free =>
      exact .free (holder.trans free)
  | @held other otherThread delivery handed remaining otherMember dispatching lines =>
      have different : other ≠ index := by
        intro same
        subst same
        rw [member] at otherMember
        cases otherMember
        rw [dispatching] at elsewhere
        cases elsewhere
      rw [← context_eq]
      refine .held ?_ dispatching lines
      rw [threads, List.getElem?_set_ne different.symm]
      exact otherMember

/-- While the lock is free there is no beginning of a block. -/
theorem Unfinished.eq_nil_of_free
    (before : Unfinished machine unfinished)
    (kept : machine.LockKept)
    (free : machine.holder = none) :
    unfinished = [] := by
  cases before with
  | free _ =>
      rfl
  | held member dispatching lines =>
      have holds := kept _ _ member
      rw [dispatching, free] at holds
      cases holds.mp rfl

/-- What a thread in the middle of a block has handed over is the beginning of it. -/
theorem Unfinished.eq_of_dispatching
    {delivery : Delivery}
    {remaining : List String}
    (before : Unfinished machine unfinished)
    (kept : machine.LockKept)
    (member : machine.threads[index]? = some thread)
    (dispatching : thread.activity = .dispatching delivery remaining) :
    ∃ handed,
      Text.splitLines delivery.message = handed ++ remaining ∧
        unfinished =
          handed.map
            (Block.entry
              ⟨index, thread.begun - 1,
                ⟨machine.host.context, delivery.header, delivery.message⟩⟩) := by
  have owner : machine.holder = some index := by
    apply (kept index thread member).mp
    rw [dispatching]
    rfl
  cases before with
  | free free =>
      rw [free] at owner
      cases owner
  | @held other otherThread otherDelivery handed _ otherMember otherDispatching
      lines =>
      have otherOwner : machine.holder = some other := by
        apply (kept other otherThread otherMember).mp
        rw [otherDispatching]
        rfl
      rw [owner] at otherOwner
      cases otherOwner
      rw [member] at otherMember
      cases otherMember
      rw [dispatching] at otherDispatching
      cases otherDispatching
      exact ⟨handed, lines, rfl⟩

/-! ## What each turn does to the account -/

section Turns

variable
    {own : List Call}
    {reached : Nat}
    {scopes : List (String × Severity)}
    {delivery : Delivery}
    (account : Account context fallback calls machine blocks unfinished)
    (member : machine.threads[index]? = some thread)
    (owns : calls[index]? = some own)
    (tasks_eq : (blocksOf index blocks).map Block.task = tasks own reached)

include account member owns tasks_eq

theorem account_of_waiting
    (idle : thread.activity.holdsLock = false)
    (current : (own[reached]?).bind Call.delivery? = some delivery) :
    Account context fallback calls
      (machine.setThread index
        ⟨.waiting delivery, own.drop (reached + 1), reached + 1, scopes⟩)
      blocks unfinished where
  running := account.running
  context_eq := account.context_eq
  relays := account.relays
  kept := account.kept.of_same member rfl rfl idle.symm
  threads_length := List.length_set.trans account.threads_length
  staged := account.staged.move owns (.waits current) tasks_eq
  sound := account.sound
  beginning := account.beginning.of_moved member idle rfl rfl rfl
  log_eq := account.log_eq

/-- Loggers are exchanged between two blocks only. -/
theorem account_of_exchanged
    {logger : Logger}
    (idle : thread.activity.holdsLock = false)
    (current : own[reached]? = some (.setLogger logger))
    (relays : logger.Relays fallback)
    (free : machine.holder = none) :
    Account context fallback calls
      ((machine.setContext
          { machine.host.context with logger := logger }).setThread index
        ⟨.idle, own.drop (reached + 1), reached + 1, scopes⟩)
      blocks unfinished where
  running := account.running
  context_eq := by
    have same := account.context_eq
    simp only [Machine.setThread, Machine.setContext, Host.withContext]
    rw [same]
  relays := relays
  kept := account.kept.of_same member rfl rfl idle.symm
  threads_length := List.length_set.trans account.threads_length
  staged := by
    apply account.staged.move owns .rests
    rw [tasks_eq, tasks_succ current]
    simp [Call.delivery?]
  sound := account.sound
  -- The lock is free, so there is no block that the exchange could split.
  beginning := by
    rw [account.beginning.eq_nil_of_free account.kept free]
    exact .free free
  log_eq := account.log_eq

/-- The block of a thread that takes the lock begins with nothing. -/
theorem account_of_acquired
    (current : (own[reached]?).bind Call.delivery? = some delivery)
    (free : machine.holder = none) :
    Account context fallback calls
      ((machine.setHolder (some index)).setThread index
        ⟨.dispatching delivery (Text.splitLines delivery.message),
          own.drop (reached + 1), reached + 1, scopes⟩)
      blocks unfinished where
  running := account.running
  context_eq := account.context_eq
  relays := account.relays
  kept := account.kept.of_acquired free rfl rfl rfl
  threads_length := List.length_set.trans account.threads_length
  staged := account.staged.move owns (.hands current) tasks_eq
  sound := account.sound
  beginning := by
    have inside := (List.getElem?_eq_some_iff.mp member).1
    rw [account.beginning.eq_nil_of_free account.kept free]
    refine
      @Unfinished.held _ index
        ⟨.dispatching delivery (Text.splitLines delivery.message),
          own.drop (reached + 1), reached + 1, scopes⟩
        delivery [] _ ?_ rfl rfl
    exact List.getElem?_set_self inside
  log_eq := account.log_eq

theorem account_of_handed
    {text : String}
    {remaining : List String}
    (thread_eq :
      thread =
        ⟨.dispatching delivery (text :: remaining), own.drop (reached + 1),
          reached + 1, scopes⟩)
    (current : (own[reached]?).bind Call.delivery? = some delivery) :
    ∃ unfinished,
      Account context fallback calls
        (machine.handLine index thread delivery text remaining)
        blocks unfinished := by
  subst thread_eq
  rcases account.beginning.eq_of_dispatching account.kept member rfl with
    ⟨handed, lines, beginning⟩
  have inside := (List.getElem?_eq_some_iff.mp member).1
  have handing := Emission.hand_of_relays account.relays delivery.header text
  simp only [Machine.handLine, handing]
  refine
    ⟨(handed ++ [text]).map
      (Block.entry
        ⟨index, reached,
          ⟨machine.host.context, delivery.header, delivery.message⟩⟩),
      account.running, account.context_eq, account.relays,
      account.kept.of_same member rfl rfl rfl,
      List.length_set.trans account.threads_length,
      account.staged.move owns (.hands current) tasks_eq, account.sound, ?_, ?_⟩
  · refine
      @Unfinished.held _ index
        ⟨.dispatching delivery remaining, own.drop (reached + 1),
          reached + 1, scopes⟩
        delivery (handed ++ [text]) remaining ?_ rfl (by simpa using lines)
    exact List.getElem?_set_self inside
  · simp only [Machine.setThread, Machine.logged, account.log_eq, beginning]
    simp [Block.entry]

/-- A block is complete when its thread releases the lock. -/
theorem account_of_released
    {call : Call}
    (thread_eq :
      thread =
        ⟨.dispatching delivery [], own.drop (reached + 1), reached + 1, scopes⟩)
    (current : own[reached]? = some call)
    (delivers : call.delivery? = some delivery)
    (plain : call.Plain context fallback) :
    ∃ blocks,
      Account context fallback calls
        ((machine.setHolder none).setThread index
          { thread with
            activity := Machine.afterDelivery machine.host.context delivery })
        blocks [] := by
  subst thread_eq
  rcases account.beginning.eq_of_dispatching account.kept member rfl with
    ⟨handed, lines, beginning⟩
  rcases plain.quiet delivers with ⟨returns, announces⟩
  have idle : Machine.afterDelivery machine.host.context delivery = .idle := by
    simp only [Machine.afterDelivery, returns, announces]
    rfl
  rw [idle]
  refine
    ⟨blocks ++
        [⟨index, reached,
          ⟨machine.host.context, delivery.header, delivery.message⟩⟩],
      account.running, account.context_eq, account.relays,
      account.kept.of_released member rfl rfl rfl rfl,
      List.length_set.trans account.threads_length,
      account.staged.set owns .rests ?_ ?_, ?_, .free rfl, ?_⟩
  · intro block blockMember
    rw [List.mem_singleton] at blockMember
    rw [blockMember]
  · have task :
        (blocksOf index
            [⟨index, reached,
              ⟨machine.host.context, delivery.header, delivery.message⟩⟩]).map
            Block.task =
          [(reached, delivery)] := by
      simp [blocksOf, Block.task, ← announces]
    rw [blocksOf, List.filter_append, List.map_append, ← blocksOf, ← blocksOf,
      tasks_eq, task, tasks_succ current, delivers]
    rfl
  · intro block blockMember
    rcases List.mem_append.mp blockMember with earlier | last
    · exact account.sound block earlier
    · rw [List.mem_singleton] at last
      rw [last]
      refine ⟨?_, account.context_eq, account.relays⟩
      exact (List.getElem?_eq_some_iff.mp owns).1
  · rw [List.append_nil] at lines
    simp only [Machine.setThread, Machine.setHolder, account.log_eq, beginning,
      List.flatMap_append, List.flatMap_singleton, Block.entries, lines,
      List.append_nil]
    rfl

theorem account_of_begun
    {call : Call}
    (idle : thread.activity.holdsLock = false)
    (current : own[reached]? = some call)
    (plain : call.Plain context fallback)
    (free : call.locks = true → machine.holder = none) :
    Account context fallback calls
      (machine.beginCall index
        ⟨.idle, own.drop (reached + 1), reached + 1, scopes⟩ call)
      blocks unfinished := by
  cases plain with
  | @close record passes returns =>
      have passes_here :
          machine.host.context.shouldEmit record.severity = true := by
        rw [account.context_eq]
        exact passes
      simp only [Machine.beginCall, passes_here, if_true]
      apply account_of_waiting account member owns tasks_eq idle
      rw [current]
      rfl
  | emit returns message =>
      simp only [Machine.beginCall]
      apply account_of_waiting account member owns tasks_eq idle
      rw [current]
      rfl
  | setLogger relays =>
      exact account_of_exchanged account member owns tasks_eq idle current relays
        (free rfl)

end Turns

theorem getElem?_of_drop_eq_cons
    {own rest : List Call}
    {reached : Nat}
    {call : Call}
    (next : own.drop reached = call :: rest) :
    own[reached]? = some call ∧ rest = own.drop (reached + 1) := by
  constructor
  · rw [← List.head?_drop, next]
    rfl
  · rw [← List.tail_drop, next]
    rfl

/-- Every turn leaves a log that can be accounted for. -/
theorem account_of_turn
    (plain : ∀ own ∈ calls, ∀ call ∈ own, call.Plain context fallback)
    (account : Account context fallback calls machine blocks unfinished)
    (member : machine.threads[index]? = some thread)
    (turn : Turn machine index thread after) :
    ∃ blocks unfinished,
      Account context fallback calls after blocks unfinished := by
  rcases account.staged index thread member with
    ⟨own, reached, owns, stage, tasks_eq⟩
  have own_plain := plain own (List.mem_of_getElem? owns)
  cases turn with
  | pauses =>
      exact ⟨blocks, unfinished, account⟩
  | begins idle next free =>
      cases stage with
      | rests =>
          rcases getElem?_of_drop_eq_cons next with ⟨current, rfl⟩
          exact
            ⟨blocks, unfinished,
              account_of_begun account member owns tasks_eq rfl current
                (own_plain _ (List.mem_of_getElem? current)) free⟩
      | waits current =>
          cases idle
      | hands current =>
          cases idle
  | acquires waiting free =>
      cases stage with
      | waits current =>
          cases waiting
          exact
            ⟨blocks, unfinished,
              account_of_acquired account member owns tasks_eq current free⟩
      | rests =>
          cases waiting
      | hands current =>
          cases waiting
  | hands dispatching =>
      cases stage with
      | hands current =>
          cases dispatching
          exact
            ⟨blocks,
              account_of_handed account member owns tasks_eq rfl current⟩
      | rests =>
          cases dispatching
      | waits current =>
          cases dispatching
  | releases dispatched =>
      cases stage with
      | hands current =>
          cases dispatched
          rcases Option.bind_eq_some_iff.mp current with ⟨call, found, delivers⟩
          rcases
            account_of_released account member owns tasks_eq rfl found delivers
              (own_plain call (List.mem_of_getElem? found)) with
            ⟨complete, released⟩
          exact ⟨complete, [], released⟩
      | rests =>
          cases dispatched
      | waits current =>
          cases dispatched
  | announces impossible =>
      cases stage <;> cases impossible
  | aborts impossible =>
      cases stage <;> cases impossible
  | installs impossible =>
      cases stage <;> cases impossible
  | yields impossible initialized =>
      cases stage <;> cases impossible
  | claims impossible fresh =>
      cases stage <;> cases impossible
  | stashes impossible =>
      cases stage <;> cases impossible
  | leaves impossible =>
      cases stage <;> cases impossible
  | reports impossible =>
      cases stage <;> cases impossible

theorem account_start
    {host : Host}
    (relays : host.context.logger.Relays fallback)
    (calls : List (List Call)) :
    Account host.context fallback calls (Machine.start host calls) [] [] where
  running := rfl
  context_eq := rfl
  relays := relays
  kept := Machine.lockKept_start host calls
  threads_length := List.length_map _
  staged := by
    intro index thread member
    rw [Machine.start, List.getElem?_map] at member
    rcases Option.map_eq_some_iff.mp member with ⟨own, owns, rfl⟩
    exact ⟨own, 0, owns, .rests, by simp [tasks, blocksOf]⟩
  sound := by
    simp
  beginning := .free rfl
  log_eq := rfl

/-- Some blocks, and the beginning of one, account for the log of a machine. -/
def Accounted
    (context : Context)
    (fallback : Channel)
    (calls : List (List Call))
    (machine : Machine) : Prop :=
  ∃ blocks unfinished, Account context fallback calls machine blocks unfinished

/-- Under every schedule the log can be accounted for. -/
theorem Accounted.run
    (plain : ∀ own ∈ calls, ∀ call ∈ own, call.Plain context fallback)
    (accounted : Accounted context fallback calls machine)
    (schedule : List Nat) :
    Accounted context fallback calls (machine.run schedule) := by
  refine
    @Machine.run_invariant (Accounted context fallback calls) ?_ machine
      accounted schedule
  rintro before after index thread ⟨blocks, unfinished, account⟩ member turn
  exact account_of_turn plain account member turn

end GatedLog.Concurrency
