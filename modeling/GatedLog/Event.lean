import GatedLog.Aborter
import GatedLog.Logger

/-!
# Events and what can be seen of them

Events are what loggers and aborters receive.  Not all of that shows outside: a
disconnected logger loses its lines, a channel logger passes them on under its
own channel, a kernel logger leaves nothing but bytes on its device, and an
aborter that ends the process has nobody left to tell.
-/

namespace GatedLog

/-- Something that a logger or an aborter received. -/
inductive Event where
  /-- A logger took a line and wrote these bytes to its device for it. -/
  | line (logger : Logger) (line : Line) (written : List UInt8)
  /-- An aborter was called with a message. -/
  | abort (aborter : Aborter) (message : String)

/-- What can be seen of an event from outside. -/
inductive Sighting where
  /-- Nothing at all. -/
  | nothing
  /-- The line arrived under the logger's name. -/
  | line (id : String) (line : Line)
  /-- These bytes reached the device of the logger. -/
  | bytes (id : String) (content : List UInt8)
  /-- The line was printed on the standard error stream. -/
  | printed (coloured : Bool) (line : Line)
  /-- The call arrived under the aborter's name. -/
  | abort (id message : String)
  deriving DecidableEq, Repr

/-- What can be seen of a line that a logger took, given what it wrote for it. -/
def Logger.sighting (logger : Logger) (line : Line) (written : List UInt8) : Sighting :=
  match logger with
  | .channel _ _ false => .nothing
  | .channel id fallback true =>
    .line id { line with channel := line.channel.resolve fallback }
  | .closure id _ => .line id line
  | .kernel _ none => .nothing
  | .kernel id (some _) => .bytes id written
  | .terminal coloured => .printed coloured line

/-- What can be seen of an aborter's call. -/
def Aborter.sighting (aborter : Aborter) (message : String) : Sighting :=
  match aborter with
  | .terminate => .nothing
  | .unwind id _ => .abort id message

namespace Event

/-- What can be seen of an event from outside. -/
def sighting : Event → Sighting
  | .line logger received written => logger.sighting received written
  | .abort aborter message => aborter.sighting message

/-- The logger and the line of an event, if it is a line. -/
def received? : Event → Option (Logger × Line)
  | .line logger received _ => some (logger, received)
  | .abort _ _ => none

/-- The aborter and the message of an event, if it is a call of an aborter. -/
def aborted? : Event → Option (Aborter × String)
  | .line _ _ _ => none
  | .abort aborter message => some (aborter, message)

end Event

end GatedLog
