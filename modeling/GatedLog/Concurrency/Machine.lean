import GatedLog.Concurrency.Thread

/-!
# Interleaved steps of several threads

The machine holds the shared process, the holder of the dispatch lock, the
threads, and the log of everything that happened.  A step is one atomic action
of one thread.  A thread that needs the lock while another one holds it cannot
take its step, and neither can a thread whose calls are over; such steps leave
the machine as it is.  A run takes one step for each number of a schedule, so
the schedules are all the interleavings there are.

An aborter that leaves for its caller ends the call, not the thread: whoever
made the call catches it and goes on with the next one.
-/

namespace GatedLog.Concurrency

/-- Threads on a shared process. -/
structure Machine where
  host : Host
  /-- The thread that holds the dispatch lock. -/
  holder : Option Nat
  threads : List Thread
  /-- Everything that happened, in order. -/
  log : List Entry
  /-- Whether an aborter has ended the process. -/
  ended : Bool

namespace Machine

/-- Threads on a process, before their first steps. -/
def start (host : Host) (calls : List (List Call)) : Machine where
  host := host
  holder := none
  threads := calls.map Thread.new
  log := []
  ended := false

/-- The same machine with another state of one thread. -/
def setThread (machine : Machine) (index : Nat) (thread : Thread) : Machine :=
  { machine with threads := machine.threads.set index thread }

/-- The same machine with another context. -/
def setContext (machine : Machine) (context : Context) : Machine :=
  { machine with host := machine.host.withContext context }

/-- The same machine with another holder of the dispatch lock. -/
def setHolder (machine : Machine) (holder : Option Nat) : Machine :=
  { machine with holder := holder }

/-- The same machine with more happenings in the log, all of one thread's current call. -/
def logged
    (machine : Machine)
    (index : Nat)
    (thread : Thread)
    (happenings : List Happening) :
    Machine :=
  { machine with
    log := machine.log ++ happenings.map fun happening =>
      ⟨index, thread.begun - 1, happening⟩ }

/-- A thread installs a threshold; the one before goes to the log. -/
def writeThreshold
    (machine : Machine)
    (index : Nat)
    (thread : Thread)
    (severity : Severity) :
    Machine :=
  let context := machine.host.context
  (machine.setContext (context.withMinimum severity)).logged index thread
    [.threshold context.minimum severity]

/--
The machine with which a thread goes on that takes the dispatch lock, marked or
not.  There is none while another thread holds it.
-/
def acquire? (machine : Machine) : Option Machine :=
  if machine.holder.isSome then
    none
  else
    some (machine.setContext machine.host.lock)

/-- Nothing but a holder is an obstacle, and taking the lock changes nothing yet. -/
theorem acquire?_eq (machine : Machine) :
    machine.acquire? =
      if machine.holder.isSome then none else some machine := by
  rw [acquire?, Host.lock_eq]
  rfl

theorem acquire?_of_free {machine : Machine} (free : machine.holder = none) :
    machine.acquire? = some machine := by
  rw [acquire?_eq, free]
  rfl

theorem acquire?_eq_some_iff {machine locked : Machine} :
    machine.acquire? = some locked ↔
      machine.holder = none ∧ locked = machine := by
  rw [acquire?_eq]
  cases machine.holder <;> simp [eq_comm]

/-- What storing name and threshold of an initialization leaves in the log. -/
def stashHappenings (request : Initialization) (context : Context) : List Happening :=
  match request.level with
  | .ok (some severity) => [.threshold context.minimum severity]
  | _ => []

/--
The first step of a call, by a thread that counts it as begun already.  Calls
that do nothing but write under the lock are over with it.
-/
def beginCall
    (machine : Machine)
    (index : Nat)
    (thread : Thread)
    (call : Call) :
    Machine :=
  let context := machine.host.context
  match call with
  | .close record =>
    if context.shouldEmit record.severity then
      machine.setThread index
        { thread with activity := .waiting ⟨record.toHeader, record.message, none⟩ }
    else
      machine.setThread index thread
  | .emit header message =>
    machine.setThread index { thread with activity := .waiting ⟨header, message, none⟩ }
  | .setLogger logger =>
    (machine.setContext { context with logger := logger }).setThread index thread
  | .setAborter aborter =>
    (machine.setContext { context with aborter := aborter }).setThread index thread
  | .setThreshold severity =>
    (machine.writeThreshold index thread severity).setThread index thread
  | .openScope id severity =>
    (machine.writeThreshold index thread severity).setThread index
      { thread with scopes := (id, context.minimum) :: thread.scopes }
  | .closeScope id =>
    match thread.scopes.lookup id with
    | none => machine.setThread index thread
    | some previous =>
      (machine.writeThreshold index thread previous).setThread index
        { thread with scopes := thread.scopes.eraseP fun scope => scope.1 == id }
  | .setUp request =>
    (machine.setHolder (some index)).setThread index
      { thread with activity := .installing request }

/-- What a thread does after the lines of a delivery, the lock being released. -/
def afterDelivery (context : Context) (delivery : Delivery) : Activity :=
  if delivery.header.severity.aborts then
    .aborting context.aborter delivery.message
  else
    match delivery.announces with
    | some (aborter, message) => .announced aborter message
    | none => .idle

/-- What a thread does that is about to call an aborter: the announcement comes first. -/
def announcing (host : Host) (aborter : Aborter) (message : String) : Activity :=
  match aborter with
  | .unwind _ (some announcement) =>
    let record := announcement.record
    if host.shouldEmit record.severity then
      .waiting ⟨record.toHeader, record.message, some (aborter, message)⟩
    else
      .announced aborter message
  | _ => .announced aborter message

/-- An aborter that was called leaves for its caller, or ends the process. -/
def abort
    (machine : Machine)
    (index : Nat)
    (thread : Thread)
    (aborter : Aborter)
    (message : String) :
    Machine :=
  let called := machine.logged index thread [.event (.abort aborter message)]
  match aborter.departure message with
  | .terminated _ => { called with ended := true }
  | _ => called.setThread index { thread with activity := .idle }

/-- A thread that holds the lock hands over one line; a panic releases the lock. -/
def handLine
    (machine : Machine)
    (index : Nat)
    (thread : Thread)
    (delivery : Delivery)
    (text : String)
    (remaining : List String) :
    Machine :=
  let outcome := Emission.hand delivery.header text machine.host
  let handed : Machine :=
    { machine with host := outcome.state }.logged index thread
      (outcome.events.map .event)
  match outcome.exit with
  | .ok _ =>
    handed.setThread index { thread with activity := .dispatching delivery remaining }
  | .error _ =>
    (handed.setHolder none).setThread index { thread with activity := .idle }

/-- The next step of a thread. -/
def advance (machine : Machine) (index : Nat) (thread : Thread) : Machine :=
  let context := machine.host.context
  match thread.activity with
  | .idle =>
    match thread.calls with
    | [] => machine
    | call :: calls =>
      let begun := { thread with calls := calls, begun := thread.begun + 1 }
      if call.locks then
        match machine.acquire? with
        | none => machine
        | some locked => locked.beginCall index begun call
      else
        machine.beginCall index begun call
  | .waiting delivery =>
    match machine.acquire? with
    | none => machine
    | some locked =>
      (locked.setHolder (some index)).setThread index
        { thread with
          activity := .dispatching delivery (Text.splitLines delivery.message) }
  | .dispatching delivery (text :: remaining) =>
    machine.handLine index thread delivery text remaining
  | .dispatching delivery [] =>
    (machine.setHolder none).setThread index
      { thread with activity := afterDelivery context delivery }
  | .aborting aborter message =>
    machine.setThread index
      { thread with activity := announcing machine.host aborter message }
  | .announced aborter message =>
    machine.abort index thread aborter message
  | .installing request =>
    (machine.setContext (request.installPair context)).setThread index
      { thread with activity := .claiming request }
  | .claiming request =>
    if context.initialized then
      machine.setThread index { thread with activity := .leaving none }
    else
      (machine.setContext { context with initialized := true }).setThread index
        { thread with activity := .stashing request }
  | .stashing request =>
    ((machine.setContext (request.stash context)).logged index thread
      (stashHappenings request context)).setThread index
        { thread with activity := .leaving request.problem? }
  | .leaving none =>
    (machine.setHolder none).setThread index { thread with activity := .idle }
  | .leaving (some problem) =>
    let record := Initialization.report machine.host.reportSite problem
    (machine.setHolder none).setThread index
      { thread with activity := .waiting ⟨record.toHeader, record.message, none⟩ }

/-- One step of the thread with a given number, if there is one that can take it. -/
def step (machine : Machine) (index : Nat) : Machine :=
  if machine.ended then
    machine
  else
    match machine.threads[index]? with
    | none => machine
    | some thread => machine.advance index thread

/-- A step for each number of a schedule, in order. -/
def run (machine : Machine) (schedule : List Nat) : Machine :=
  schedule.foldl step machine

/-- Whether all threads are done. -/
def isDone (machine : Machine) : Bool :=
  machine.threads.all Thread.isDone

end Machine

end GatedLog.Concurrency
