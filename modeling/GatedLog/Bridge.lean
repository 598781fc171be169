import GatedLog.Argument

/-!
# The bridge from the other logging interface

Programs may log through another interface, which has five levels of its own
and passes records on to whatever is installed behind it.  The bridge installs
the process-wide context there.  It can be installed once; until then records
of the other interface go nowhere, and their arguments are not formatted.

Which context is at hand makes no difference to the bridge.  It does to what
an argument does while it is formatted: those effects stay with the context at
hand, and only the record itself goes to the process-wide one.
-/

namespace GatedLog

namespace Bridge

/-- The levels of the other interface. -/
inductive Level where
  | error
  | warn
  | info
  | debug
  | trace
  deriving DecidableEq, Repr

namespace Level

/-- The severity that a level stands for. -/
def severity : Level → Severity
  | .error => .error
  | .warn => .warning
  | .info => .info
  | .debug => .debug
  | .trace => .verbose

/-- Every level, from the gravest on. -/
def all : List Level :=
  [.error, .warn, .info, .debug, .trace]

/-- The upper-case name of a level. -/
def name : Level → String
  | .error => "ERROR"
  | .warn => "WARN"
  | .info => "INFO"
  | .debug => "DEBUG"
  | .trace => "TRACE"

/-- The level with a given upper-case name. -/
def ofName? (text : String) : Option Level :=
  all.find? fun level => level.name == text

end Level

/-- Why the bridge could not be installed. -/
inductive InstallError where
  | alreadyInstalled
  deriving DecidableEq, Repr

/-- The report of a failed installation. -/
def InstallError.message : InstallError → String
  | .alreadyInstalled =>
    "attempted to set a logger after the logging system was already initialized"

/-- Installs the bridge and opens it for all levels, unless it is in place already. -/
def install : Operation Host (Except InstallError Level) :=
  Operation.modifyGet fun host =>
    if host.bridged then
      (.error .alreadyInstalled, host)
    else
      (.ok .trace, { host with bridged := true })

/-- A bridge that is in place stays as it is. -/
theorem install_of_bridged
    {host : Host}
    (bridged : host.bridged = true) :
    install host = Operation.done (.error .alreadyInstalled) host := by
  simp [install, Operation.modifyGet, Operation.done, bridged]

/-- The first installation succeeds. -/
theorem install_of_not_bridged
    {host : Host}
    (apart : host.bridged = false) :
    install host = ⟨.ok (.ok .trace), { host with bridged := true }, []⟩ := by
  simp [install, Operation.modifyGet, apart]

/-- Whether a record of some level would get through the bridge and the threshold. -/
def enabled (level : Level) (host : Host) : Bool :=
  host.bridged && host.sharedContext.shouldEmit level.severity

/-- A record of the other interface, which need not say where it comes from. -/
structure Message where
  level : Level
  file : Option String
  line : Option UInt32
  deriving DecidableEq, Repr

/-- The record that a message of the other interface becomes. -/
def Message.record (message : Message) : Record :=
  Record.start
    (message.file.getD "<unknown>")
    (message.line.getD 0)
    .unspecified
    message.level.severity
    none

/-- Passes a message on; the result tells whether its argument was formatted. -/
def Message.run (message : Message) (argument : List Piece) : Operation Host Bool :=
  fun host =>
    if enabled message.level host then
      (message.record.writeAndCloseShared argument host).mapValue fun _ => true
    else
      Operation.done false host

end Bridge

end GatedLog
