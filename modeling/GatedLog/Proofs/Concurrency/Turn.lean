import GatedLog.Concurrency.Machine

/-!
# What a thread can do in one step

The steps of a thread are listed once, each with what it requires and with the
machine that it leaves behind.  A property that all of them preserve holds
after every schedule.
-/

namespace GatedLog.Concurrency

/-- One step of a thread, by what the thread is in the middle of. -/
inductive Turn (machine : Machine) (index : Nat) (thread : Thread) :
    Machine → Prop where
  /-- The thread is done, or has to wait for the lock. -/
  | pauses : Turn machine index thread machine
  | begins
      {call : Call}
      {calls : List Call}
      (idle : thread.activity = .idle)
      (next : thread.calls = call :: calls)
      (free : call.locks = true → machine.holder = none) :
      Turn machine index thread
        (machine.beginCall index
          { thread with calls := calls, begun := thread.begun + 1 } call)
  | acquires
      {delivery : Delivery}
      (waiting : thread.activity = .waiting delivery)
      (free : machine.holder = none) :
      Turn machine index thread
        ((machine.setHolder (some index)).setThread index
          { thread with
            activity :=
              .dispatching delivery (Text.splitLines delivery.message) })
  | hands
      {delivery : Delivery}
      {text : String}
      {remaining : List String}
      (dispatching : thread.activity = .dispatching delivery (text :: remaining)) :
      Turn machine index thread
        (machine.handLine index thread delivery text remaining)
  | releases
      {delivery : Delivery}
      (dispatched : thread.activity = .dispatching delivery []) :
      Turn machine index thread
        ((machine.setHolder none).setThread index
          { thread with
            activity := Machine.afterDelivery machine.host.context delivery })
  | announces
      {aborter : Aborter}
      {message : String}
      (aborting : thread.activity = .aborting aborter message) :
      Turn machine index thread
        (machine.setThread index
          { thread with
            activity := Machine.announcing machine.host aborter message })
  | aborts
      {aborter : Aborter}
      {message : String}
      (announced : thread.activity = .announced aborter message) :
      Turn machine index thread (machine.abort index thread aborter message)
  | installs
      {request : Initialization}
      (installing : thread.activity = .installing request) :
      Turn machine index thread
        ((machine.setContext
            (request.installPair machine.host.context)).setThread index
          { thread with activity := .claiming request })
  /-- The thread finds the context initialized. -/
  | yields
      {request : Initialization}
      (claiming : thread.activity = .claiming request)
      (initialized : machine.host.context.initialized = true) :
      Turn machine index thread
        (machine.setThread index { thread with activity := .leaving none })
  | claims
      {request : Initialization}
      (claiming : thread.activity = .claiming request)
      (fresh : machine.host.context.initialized = false) :
      Turn machine index thread
        ((machine.setContext
            { machine.host.context with initialized := true }).setThread index
          { thread with activity := .stashing request })
  | stashes
      {request : Initialization}
      (stashing : thread.activity = .stashing request) :
      Turn machine index thread
        (((machine.setContext
              (request.stash machine.host.context)).logged index thread
            (Machine.stashHappenings request machine.host.context)).setThread
          index { thread with activity := .leaving request.problem? })
  | leaves
      (leaving : thread.activity = .leaving none) :
      Turn machine index thread
        ((machine.setHolder none).setThread index
          { thread with activity := .idle })
  | reports
      {problem : TagsError}
      (leaving : thread.activity = .leaving (some problem)) :
      Turn machine index thread
        ((machine.setHolder none).setThread index
          { thread with
            activity :=
              .waiting
                ⟨(Initialization.report machine.host.reportSite
                    problem).toHeader,
                  (Initialization.report machine.host.reportSite
                    problem).message,
                  none⟩ })

namespace Machine

/-- Every step of a thread is one of those listed. -/
theorem advance_turn (machine : Machine) (index : Nat) (thread : Thread) :
    Turn machine index thread (machine.advance index thread) := by
  cases activity : thread.activity with
  | idle =>
      cases calls : thread.calls with
      | nil =>
          simp only [advance, activity, calls]
          exact .pauses
      | cons call rest =>
          have begins := @Turn.begins machine index _ _ _ activity calls
          rw [activity] at begins
          simp only [advance, activity, calls]
          split
          · split
            · exact .pauses
            · next locked taken =>
                rcases acquire?_eq_some_iff.mp taken with ⟨free, rfl⟩
                exact begins fun _ => free
          · next unlocked =>
              exact begins fun locks => absurd locks unlocked
  | waiting delivery =>
      simp only [advance, activity]
      split
      · exact .pauses
      · next locked taken =>
          rcases acquire?_eq_some_iff.mp taken with ⟨free, rfl⟩
          exact .acquires activity free
  | dispatching delivery remaining =>
      cases remaining with
      | nil =>
          simp only [advance, activity]
          exact .releases activity
      | cons text remaining =>
          simp only [advance, activity]
          exact .hands activity
  | aborting aborter message =>
      simp only [advance, activity]
      exact .announces activity
  | announced aborter message =>
      simp only [advance, activity]
      exact .aborts activity
  | installing request =>
      simp only [advance, activity]
      exact .installs activity
  | claiming request =>
      simp only [advance, activity]
      split
      · next initialized =>
          exact .yields activity initialized
      · next fresh =>
          exact .claims activity (eq_false_of_ne_true fresh)
  | stashing request =>
      simp only [advance, activity]
      exact .stashes activity
  | leaving problem =>
      cases problem with
      | none =>
          simp only [advance, activity]
          exact .leaves activity
      | some problem =>
          simp only [advance, activity]
          exact .reports activity

/-- Where one thread was replaced, a thread is the new one or as it was. -/
theorem getElem?_set_cases
    {threads : List Thread}
    {index other : Nat}
    {next thread : Thread}
    (member : (threads.set index next)[other]? = some thread) :
    (other = index ∧ thread = next) ∨
      (other ≠ index ∧ threads[other]? = some thread) := by
  rw [List.getElem?_set] at member
  split at member
  · next equal =>
      split at member
      · exact Or.inl ⟨equal.symm, (Option.some.inj member).symm⟩
      · cases member
  · next different =>
      exact Or.inr ⟨fun equal => different equal.symm, member⟩

/-- What every turn preserves holds after every schedule. -/
theorem run_invariant
    {Invariant : Machine → Prop}
    (preserved :
      ∀ {machine after : Machine} {index : Nat} {thread : Thread},
        Invariant machine →
        machine.threads[index]? = some thread →
        Turn machine index thread after →
        Invariant after)
    {machine : Machine}
    (initial : Invariant machine)
    (schedule : List Nat) :
    Invariant (machine.run schedule) := by
  induction schedule generalizing machine with
  | nil =>
      exact initial
  | cons index rest induction =>
      apply induction
      unfold step
      split
      · exact initial
      · split
        · exact initial
        · next thread member =>
            exact preserved initial member (machine.advance_turn index thread)

end Machine

/-! ## What a turn leaves of threads and log -/

/-- A thread is in the middle of a call and goes on, or begins the next one. -/
inductive Thread.Moves (holder : Option Nat) (thread : Thread) : Thread → Prop where
  | goesOn
      {next : Thread}
      (busy : thread.activity ≠ .idle)
      (calls_eq : next.calls = thread.calls)
      (begun_eq : next.begun = thread.begun) :
      Moves holder thread next
  | begins
      {next : Thread}
      {call : Call}
      (idle : thread.activity = .idle)
      (free : call.locks = true → holder = none)
      (calls_eq : thread.calls = call :: next.calls)
      (begun_eq : next.begun = thread.begun + 1) :
      Moves holder thread next

/-- What a thread is in the middle of for one of its calls, which may be over. -/
def Thread.activityAt (thread : Thread) (position : Nat) : Activity :=
  if position + 1 = thread.begun then thread.activity else .idle

theorem Thread.activityAt_of_current
    {position : Nat}
    (thread : Thread)
    (current : position + 1 = thread.begun) :
    thread.activityAt position = thread.activity :=
  if_pos current

/-- A call before the current one was begun before it, and is over since. -/
theorem Thread.Moves.idle_of_earlier
    {holder : Option Nat}
    {thread next : Thread}
    {position : Nat}
    (moves : thread.Moves holder next)
    (begun : position < next.begun)
    (earlier : position + 1 ≠ next.begun) :
    position < thread.begun ∧ thread.activityAt position = .idle := by
  cases moves with
  | goesOn busy calls_eq begun_eq =>
      rw [activityAt, if_neg (by omega)]
      exact ⟨by omega, rfl⟩
  | begins idle free calls_eq begun_eq =>
      rw [activityAt, idle, ite_self]
      exact ⟨by omega, rfl⟩

namespace Machine

/-- What a turn leaves of threads and log: one thread has moved, with its entries. -/
structure Turned
    (machine : Machine)
    (index : Nat)
    (thread next : Thread)
    (after : Machine) : Prop where
  threads_eq : after.threads = machine.threads.set index next
  log_eq : ∃ happenings, after.log = (machine.logged index next happenings).log
  moves : thread.Moves machine.holder next

variable
    {machine after : Machine}
    {index : Nat}
    {thread next : Thread}

/-- A turn that notes nothing. -/
theorem Turned.of_unlogged
    (threads_eq : after.threads = machine.threads.set index next)
    (log_eq : after.log = machine.log)
    (moves : thread.Moves machine.holder next) :
    Turned machine index thread next after :=
  ⟨threads_eq, ⟨[], by simp [logged, log_eq]⟩, moves⟩

/-- A thread in the middle of something that notes nothing. -/
theorem turned_of_busy
    {before activity : Activity}
    (doing : thread.activity = before)
    (busy : before ≠ .idle)
    (threads_eq :
      after.threads =
        machine.threads.set index { thread with activity := activity })
    (log_eq : after.log = machine.log) :
    ∃ next, Turned machine index thread next after :=
  ⟨_, .of_unlogged threads_eq log_eq (.goesOn (doing ▸ busy) rfl rfl)⟩

theorem turned_beginCall
    {rest : List Call}
    {call : Call}
    (idle : thread.activity = .idle)
    (following : thread.calls = call :: rest)
    (free : call.locks = true → machine.holder = none) :
    ∃ next,
      Turned machine index thread next
        (machine.beginCall index
          { thread with calls := rest, begun := thread.begun + 1 } call) := by
  cases call with
  | close record =>
      simp only [beginCall]
      split
      · exact ⟨_, .of_unlogged rfl rfl (.begins idle free following rfl)⟩
      · exact ⟨_, .of_unlogged rfl rfl (.begins idle free following rfl)⟩
  | setThreshold severity =>
      exact ⟨_, rfl, ⟨_, rfl⟩, .begins idle free following rfl⟩
  | openScope id severity =>
      exact ⟨_, rfl, ⟨_, rfl⟩, .begins idle free following rfl⟩
  | closeScope id =>
      simp only [beginCall]
      split
      · exact ⟨_, .of_unlogged rfl rfl (.begins idle free following rfl)⟩
      · exact ⟨_, rfl, ⟨_, rfl⟩, .begins idle free following rfl⟩
  | _ =>
      exact ⟨_, .of_unlogged rfl rfl (.begins idle free following rfl)⟩

theorem set_getElem?_self
    {threads : List Thread}
    (member : threads[index]? = some thread) :
    threads.set index thread = threads := by
  rcases List.getElem?_eq_some_iff.mp member with ⟨inside, rfl⟩
  exact List.set_getElem_self inside

/-- A turn leaves everything as it is, or moves its thread. -/
theorem turned_of_turn
    (member : machine.threads[index]? = some thread)
    (turn : Turn machine index thread after) :
    after = machine ∨ ∃ next, Turned machine index thread next after := by
  cases turn with
  | pauses =>
      exact Or.inl rfl
  | begins idle following free =>
      exact Or.inr (turned_beginCall idle following free)
  | hands dispatching =>
      right
      simp only [handLine]
      split
      · exact ⟨_, rfl, ⟨_, rfl⟩, .goesOn (by rw [dispatching]; nofun) rfl rfl⟩
      · exact ⟨_, rfl, ⟨_, rfl⟩, .goesOn (by rw [dispatching]; nofun) rfl rfl⟩
  | aborts announced =>
      right
      simp only [abort]
      split
      · exact
          ⟨thread, (set_getElem?_self member).symm, ⟨_, rfl⟩,
            .goesOn (by rw [announced]; nofun) rfl rfl⟩
      · exact ⟨_, rfl, ⟨_, rfl⟩, .goesOn (by rw [announced]; nofun) rfl rfl⟩
  | stashes stashing =>
      exact Or.inr
        ⟨_, rfl, ⟨_, rfl⟩, .goesOn (by rw [stashing]; nofun) rfl rfl⟩
  | acquires waiting free =>
      exact Or.inr (turned_of_busy waiting nofun rfl rfl)
  | yields claiming initialized =>
      exact Or.inr (turned_of_busy claiming nofun rfl rfl)
  | claims claiming fresh =>
      exact Or.inr (turned_of_busy claiming nofun rfl rfl)
  | releases dispatched =>
      exact Or.inr (turned_of_busy dispatched nofun rfl rfl)
  | announces aborting =>
      exact Or.inr (turned_of_busy aborting nofun rfl rfl)
  | installs installing =>
      exact Or.inr (turned_of_busy installing nofun rfl rfl)
  | leaves leaving =>
      exact Or.inr (turned_of_busy leaving nofun rfl rfl)
  | reports leaving =>
      exact Or.inr (turned_of_busy leaving nofun rfl rfl)

/-- Whatever is added to a log belongs to one thread. -/
def ExtendsLog (index : Nat) (machine after : Machine) : Prop :=
  ∃ added,
    after.log = machine.log ++ added ∧ ∀ entry ∈ added, entry.thread = index

namespace ExtendsLog

variable
    {machine between after : Machine}
    {index : Nat}

theorem of_eq (same : after.log = machine.log) :
    ExtendsLog index machine after :=
  ⟨[], by rw [same, List.append_nil], by simp⟩

theorem of_logged
    {thread : Thread}
    {happenings : List Happening}
    (same : after.log = (machine.logged index thread happenings).log) :
    ExtendsLog index machine after := by
  refine ⟨_, same, ?_⟩
  intro entry member
  rcases List.mem_map.mp member with ⟨happening, _, rfl⟩
  rfl

theorem trans
    (first : ExtendsLog index machine between)
    (second : ExtendsLog index between after) :
    ExtendsLog index machine after := by
  rcases first with ⟨added, log_eq, ours⟩
  rcases second with ⟨later, later_eq, later_ours⟩
  refine ⟨added ++ later, by rw [later_eq, log_eq, List.append_assoc], ?_⟩
  intro entry member
  rcases List.mem_append.mp member with member | member
  · exact ours entry member
  · exact later_ours entry member

end ExtendsLog

/-- A thread adds nothing to the log but happenings of its own. -/
theorem extendsLog_of_turn
    (member : machine.threads[index]? = some thread)
    (turn : Turn machine index thread after) :
    ExtendsLog index machine after := by
  rcases turned_of_turn member turn with rfl | ⟨next, _, ⟨happenings, log_eq⟩, _⟩
  · exact .of_eq rfl
  · exact .of_logged log_eq

theorem extendsLog_run_replicate
    (machine : Machine)
    (index steps : Nat) :
    ExtendsLog index machine (machine.run (List.replicate steps index)) := by
  induction steps generalizing machine with
  | zero =>
      exact .of_eq rfl
  | succ steps induction =>
      refine ExtendsLog.trans ?_ (induction (machine.step index))
      simp only [step]
      split
      · exact .of_eq rfl
      · split
        · exact .of_eq rfl
        · next thread member =>
            exact extendsLog_of_turn member (machine.advance_turn index thread)

end Machine

/-! ## Calls and their positions -/

/-- What is selected of the first calls of a thread, when it has begun one more. -/
theorem filterMap_zipIdx_take_succ
    {Result : Type}
    {own : List Call}
    {reached : Nat}
    {call : Call}
    (next : own[reached]? = some call)
    (select : Call × Nat → Option Result) :
    (own.take (reached + 1)).zipIdx.filterMap select =
      (own.take reached).zipIdx.filterMap select ++
        (select (call, reached)).toList := by
  have inside : reached < own.length := (List.getElem?_eq_some_iff.mp next).1
  have length : (own.take reached).length = reached := by
    rw [List.length_take]
    omega
  rw [List.take_add_one, next, Option.toList_some, List.zipIdx_append,
    List.filterMap_append, length]
  cases selected : select (call, reached) <;> simp [selected]

end GatedLog.Concurrency
