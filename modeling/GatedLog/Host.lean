import GatedLog.Context
import GatedLog.Operation
import GatedLog.Tags
import GatedLog.Text.Path

/-!
# Processes

The state that logging operations work on: a context, and of the process around
it what they read or change.  That is the mark on dispatch locks, the content
of devices, the number of the last operating-system error, the environment
variable with the tags, whether the bridge from the other logging interface is
in place, the first argument of the process, and the place in its program from
which bad tags are reported.

Every process has one context that all of it can reach without being handed it.
The context at hand may be that one, or a context of its caller's own.  In the
second case the process-wide context is kept beside it, and what is done in
either of them leaves the other alone.

A dispatch lock is marked when a logger panics while it is held.  Whoever takes
a marked lock is warned, and takes it all the same: a logger that panicked
cannot have damaged what the lock guards.
-/

namespace GatedLog

/-- A context and what logging uses of the process around it. -/
structure Host where
  /-- The context at hand. -/
  context : Context
  /-- The process-wide context, unless that is the context at hand. -/
  shared : Option Context
  /-- Whether a panic ever released a dispatch lock. -/
  lockMarked : Bool
  devices : Devices
  /-- The number of the last operating-system error. -/
  errno : Int32
  /-- The value of the environment variable with the tags. -/
  environment : Option (List UInt8)
  /-- Whether records of the other logging interface arrive here. -/
  bridged : Bool
  /-- The first argument, by which the process was invoked. -/
  firstArgument : Option (List UInt8)
  /-- Where in the program bad tags are reported; it depends on how that was built. -/
  reportSite : Site

namespace Host

/-- The name that stands for a missing one. -/
def unknownName : String :=
  "<unknown>"

/--
The name of the program: the last component of the first argument, or a
placeholder if that leaves nothing.
-/
def nameOf (firstArgument : Option (List UInt8)) : String :=
  match firstArgument with
  | none => unknownName
  | some bytes =>
    let name := Text.basename (Utf8.decodeLossy bytes)
    if name.isEmpty then unknownName else name

/-- The name of the program. -/
def programName (host : Host) : String :=
  nameOf host.firstArgument

/-- The tags in the environment, if they are set and can be read. -/
def environmentTags (host : Host) : Option String :=
  Tags.ofEnvironment host.environment

/-- The same process with another context. -/
def withContext (host : Host) (context : Context) : Host :=
  { host with context := context }

/-- The process-wide context. -/
def sharedContext (host : Host) : Context :=
  host.shared.getD host.context

/--
Performs an operation with the process-wide context at hand, and then takes up
the context of before again.
-/
def onShared
    {Value : Type}
    (operation : Operation Host Value) :
    Operation Host Value :=
  fun host =>
    match host.shared with
    | none => operation host
    | some shared =>
      (operation { host with context := shared, shared := none }).mapState fun later =>
        { later with context := host.context, shared := some later.context }

/-- If the context at hand is process-wide itself, there is nothing to take up. -/
theorem onShared_of_none
    {Value : Type}
    {host : Host}
    (alone : host.shared = none)
    (operation : Operation Host Value) :
    onShared operation host = operation host := by
  simp [onShared, alone]

/-- A context of its caller's own does not notice what is done in the process-wide one. -/
theorem onShared_context_of_some
    {Value : Type}
    {host : Host}
    {shared : Context}
    (apart : host.shared = some shared)
    (operation : Operation Host Value) :
    (onShared operation host).state.context = host.context := by
  simp [onShared, apart, Outcome.mapState]

/-! ## The dispatch lock -/

/--
What comes of asking for the dispatch lock of the context at hand: what it
guards, and that as a warning if the lock is marked.
-/
def acquire (host : Host) : Except Context Context :=
  if host.lockMarked then
    .error host.context
  else
    .ok host.context

/-- Takes the dispatch lock for what it guards, in spite of any warning. -/
def lock (host : Host) : Context :=
  match host.acquire with
  | .ok guarded => guarded
  | .error guarded => guarded

/-- A mark on the lock does not show in what it guards. -/
@[simp]
theorem lock_eq (host : Host) : host.lock = host.context := by
  unfold lock acquire
  cases host.lockMarked <;> rfl

/-- Performs an operation with the dispatch lock held, on what it guards. -/
def underLock
    {Value : Type}
    (operation : Operation Host Value) :
    Operation Host Value :=
  fun host => operation (host.withContext host.lock)

/-- No operation fails for want of an unmarked lock, or goes another way. -/
@[simp]
theorem underLock_eq
    {Value : Type}
    (operation : Operation Host Value) :
    underLock operation = operation := by
  funext host
  rw [underLock, lock_eq]
  rfl

/-! ## What is asked of a context, and of the process around it -/

/-- Whether a record of some severity would reach the logger. -/
def shouldEmit (host : Host) (severity : Severity) : Bool :=
  host.context.shouldEmit severity

/-- Installs a threshold and returns the one before. -/
def setThreshold (severity : Severity) : Operation Host Severity :=
  underLock
    (Operation.modifyGet fun host =>
      (host.context.minimum,
        host.withContext (host.context.withMinimum severity)))

theorem setThreshold_eq (severity : Severity) (host : Host) :
    setThreshold severity host =
      ⟨.ok host.context.minimum,
        host.withContext (host.context.withMinimum severity), []⟩ := by
  rw [setThreshold, underLock_eq]
  rfl

@[simp]
theorem setThreshold_context (severity : Severity) (host : Host) :
    (setThreshold severity host).state.context =
      host.context.withMinimum severity := by
  rw [setThreshold_eq]
  rfl

/-- Installs a logger. -/
def setLogger (logger : Logger) : Operation Host Unit :=
  underLock
    (Operation.modify fun host =>
      host.withContext { host.context with logger := logger })

theorem setLogger_eq (logger : Logger) (host : Host) :
    setLogger logger host =
      Operation.done ()
        (host.withContext { host.context with logger := logger }) := by
  rw [setLogger, underLock_eq]
  rfl

/-- Installs an aborter. -/
def setAborter (aborter : Aborter) : Operation Host Unit :=
  underLock
    (Operation.modify fun host =>
      host.withContext { host.context with aborter := aborter })

theorem setAborter_eq (aborter : Aborter) (host : Host) :
    setAborter aborter host =
      Operation.done ()
        (host.withContext { host.context with aborter := aborter }) := by
  rw [setAborter, underLock_eq]
  rfl

/-- Sets the number of the last operating-system error. -/
def setErrno (code : Int32) : Operation Host Unit :=
  Operation.modify fun host => { host with errno := code }

/-- Sets or unsets the environment variable with the tags. -/
def setEnvironment (value : Option (List UInt8)) : Operation Host Unit :=
  Operation.modify fun host => { host with environment := value }

end Host

end GatedLog
