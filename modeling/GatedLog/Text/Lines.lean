/-!
# Lines of a message

A message is cut at line feeds, and at nothing else.  A message without a line
feed is its own single line; a line feed at the end leaves an empty last line.
Joining the lines with line feeds gives the message back.
-/

namespace GatedLog.Text

/-- The lines of a message, in order. -/
def splitLines (message : String) : List String :=
  (message.toList.splitOn '\n').map String.ofList

/-- The message with the given lines: a line feed stands between neighbours. -/
def joinLines (lines : List String) : String :=
  "\n".intercalate lines

end GatedLog.Text
