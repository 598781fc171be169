import GatedLog.Severity
import GatedLog.Text.Decimal
import GatedLog.Text.Utf8

/-!
# Lines for the kernel's message buffer

The kernel takes one message per write, in a buffer of fixed size.  A line that
does not fit is replaced by a notice with its size.  The notice repeats the
tag, so a very long tag can make it too long as well; then it is cut, byte by
byte, at the size of the buffer.
-/

namespace GatedLog.KernelLine

/-- The size in bytes of the kernel's buffer. -/
def bufferSize : Nat :=
  1024

/-- The beginning that a line and its notice share: the level and the tag. -/
def opening (severity : Severity) (tag : String) : String :=
  "<" ++ Decimal.text severity.kernelLevel ++ ">" ++ tag ++ ": "

/-- A line in full, whatever its size. -/
def full (severity : Severity) (tag message : String) : List UInt8 :=
  Utf8.encode (opening severity tag ++ message ++ "\n")

/-- The notice that stands for a line of a given size in bytes. -/
def notice (severity : Severity) (tag : String) (size : Nat) : List UInt8 :=
  Utf8.encode
    (opening severity tag ++ Decimal.text size ++ "-byte message too long for printk\n")

/-- The bytes that are written for a line; never more than the buffer holds. -/
def bytes (severity : Severity) (tag message : String) : List UInt8 :=
  let line := full severity tag message
  if line.length ≤ bufferSize then
    line
  else
    (notice severity tag line.length).take bufferSize

end GatedLog.KernelLine
