import GatedLog.Argument

/-!
# Log statements

Log statements are written anywhere in a program, so they log to the
process-wide context.  A log statement is guarded: if its severity is disabled
when the statement is reached, its argument is not formatted at all.  Otherwise a record
is begun, the argument is formatted into it, and the record is closed.  Closing
asks the threshold once more, so a record that was enabled at first can still
be dropped.

A statement may describe the last operating-system error.  The number of that
error is taken before the argument is formatted.
-/

namespace GatedLog

/-- One log statement. -/
structure Statement where
  file : String
  line : UInt32
  channel : Channel
  severity : Severity
  /-- Whether the last operating-system error is described. -/
  describesError : Bool
  deriving DecidableEq, Repr

namespace Statement

/-- The record that a statement begins, given the number of the last error. -/
def record (statement : Statement) (errno : Int32) : Record :=
  Record.start
    statement.file
    statement.line
    statement.channel
    statement.severity
    (if statement.describesError then some errno else none)

/-- Executes a statement without the guard. -/
def runUnguarded (statement : Statement) (argument : List Piece) : Operation Host Written :=
  fun host => (statement.record host.errno).writeAndCloseShared argument host

/-- Executes a statement; the result tells whether the argument was formatted. -/
def run (statement : Statement) (argument : List Piece) : Operation Host Bool :=
  fun host =>
    if host.sharedContext.shouldEmit statement.severity then
      (statement.runUnguarded argument host).mapValue fun _ => true
    else
      Operation.done false host

end Statement

end GatedLog
