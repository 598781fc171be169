import GatedLog.Severity

/-!
# Headers and lines

A header is what all lines of one emission have in common: where the record was
written, on which channel, and how grave it is.  A line is one physical line of
a message together with its header and the tag of the emitting context.
-/

namespace GatedLog

/-- A place in the source of a program. -/
structure Site where
  file : String
  line : UInt32
  deriving DecidableEq, Repr

/-- What all lines of one emission share. -/
structure Header where
  channel : Channel
  severity : Severity
  /-- The source file of the record. -/
  file : String
  /-- The line within that file. -/
  line : UInt32
  deriving DecidableEq, Repr

/-- One physical line, as it is handed to a logger. -/
structure Line extends Header where
  /-- The name of the program. -/
  tag : String
  /-- The text of the line. -/
  message : String
  deriving DecidableEq, Repr

end GatedLog
