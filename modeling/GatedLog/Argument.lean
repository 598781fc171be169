import GatedLog.Emission

/-!
# Formatted arguments

An argument is formatted into a record while the record is open.  Formatting is
a caller's code, so besides fragments of text it can have effects: it can close
records of its own, move the threshold, set the error number, and it can stop
early, by an error or by a panic.  Whatever stops it, the fragments before that
stay in the record, and nothing after it takes place.

All these effects are on the context at hand.  The record itself may belong to
that context or to the process-wide one.
-/

namespace GatedLog

/-- One thing that a formatted argument does. -/
inductive Piece where
  /-- Writes a fragment of text. -/
  | text (fragment : String)
  /-- Closes a finished record of its own. -/
  | nested (record : Record)
  /-- Installs a threshold. -/
  | threshold (severity : Severity)
  /-- Sets the number of the last operating-system error. -/
  | errno (code : Int32)
  /-- Panics. -/
  | panic (message : String)
  /-- Reports that it cannot be formatted. -/
  | error
  deriving DecidableEq, Repr

/-- Whether an argument was formatted to its end. -/
inductive Written where
  | complete
  | failed
  deriving DecidableEq, Repr

/-- What formatting an argument comes to. -/
structure Writing where
  /-- All fragments written, whether or not the formatting came to its end. -/
  text : String
  outcome : Outcome Host Written

namespace Writing

/-- A writing preceded by a fragment. -/
def afterText (fragment : String) (writing : Writing) : Writing :=
  { writing with text := fragment ++ writing.text }

/-- A writing preceded by events. -/
def afterEvents (events : List Event) (writing : Writing) : Writing :=
  { writing with outcome := writing.outcome.after events }

/-- The writing of no text that is stopped at once, or complete at once. -/
def stopped (outcome : Outcome Host Written) : Writing :=
  ⟨"", outcome⟩

end Writing

namespace Argument

/-- Performs an effect and goes on with the rest of the argument if it returns. -/
def after
    {Value : Type}
    (effect : Operation Host Value)
    (rest : Host → Writing)
    (host : Host) :
    Writing :=
  let outcome := effect host
  match outcome.exit with
  | .ok _ => (rest outcome.state).afterEvents outcome.events
  | .error departure => .stopped ⟨.error departure, outcome.state, outcome.events⟩

/-- Formats an argument, piece by piece. -/
def write : List Piece → Host → Writing
  | [], host => .stopped (Operation.done .complete host)
  | .text fragment :: rest, host => (write rest host).afterText fragment
  | .nested record :: rest, host => after record.close (write rest) host
  | .threshold severity :: rest, host =>
    after (Host.setThreshold severity) (write rest) host
  | .errno code :: rest, host => after (Host.setErrno code) (write rest) host
  | .panic message :: _, host =>
    .stopped (Operation.depart (.panicked message) host)
  | .error :: _, host => .stopped (Operation.done .failed host)

/-- A threshold that is set on the way applies to the rest of the argument. -/
theorem write_threshold (severity : Severity) (rest : List Piece) (host : Host) :
    write (.threshold severity :: rest) host =
      write rest (host.withContext (host.context.withMinimum severity)) := by
  rw [write, after, Host.setThreshold_eq]
  rfl

end Argument

namespace Record

/--
Formats an argument into a record and then closes the record in some way,
whichever way the formatting is left.
-/
def writeThen
    (record : Record)
    (argument : List Piece)
    (close : Record → Operation Host Unit) :
    Operation Host Written :=
  fun host =>
    let writing := Argument.write argument host
    writing.outcome.ensuring (close (record.append writing.text))

/-- Formats an argument into a record and closes it in the context at hand. -/
def writeAndClose (record : Record) (argument : List Piece) : Operation Host Written :=
  record.writeThen argument close

/-- Formats an argument into a record and closes it in the process-wide context. -/
def writeAndCloseShared (record : Record) (argument : List Piece) : Operation Host Written :=
  record.writeThen argument closeShared


end Record

end GatedLog
