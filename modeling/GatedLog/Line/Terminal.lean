import GatedLog.Line
import GatedLog.Text.Decimal

/-!
# Lines for the terminal

On the standard error stream a line shows the tag, the letter of the severity,
the time and the process and thread that wrote it, the place in the source, and
then the text.  The letter can be coloured; that takes both the logger's own
choice and the process-wide permission to use colours.  Each severity has its
style.  What turns a style on and off is a matter of the terminal, and only has
to keep out of the way of the blanks and line feeds.
-/

namespace GatedLog.TerminalLine

/-- When a line was written, and by which process and thread. -/
structure Stamp where
  /-- The local time, already formatted. -/
  timestamp : String
  process : UInt32
  thread : UInt64
  deriving DecidableEq, Repr

/-- The width of the columns for process and thread. -/
def idWidth : Nat :=
  5

/-- The part of the line that the stamp fills. -/
def Stamp.text (stamp : Stamp) : String :=
  stamp.timestamp ++ " " ++
    Decimal.padded idWidth stamp.process.toNat ++ " " ++
    Decimal.padded idWidth stamp.thread.toNat

/-- How a coloured letter can look. -/
inductive Style where
  | purple
  | blue
  | green
  | yellow
  | red
  | boldRed
  deriving DecidableEq, Repr

/-- How the letter of a severity looks if it is coloured. -/
def style : Severity → Style
  | .verbose => .purple
  | .debug => .blue
  | .info => .green
  | .warning => .yellow
  | .error => .red
  | .fatalWithoutAbort => .boldRed
  | .fatal => .boldRed

/-- What is written around a letter in order to colour it. -/
structure Palette where
  /-- Turns a style on. -/
  opening : Style → String
  /-- Turns every style off. -/
  closing : String
  opening_free :
    ∀ style, ' ' ∉ (opening style).toList ∧ '\n' ∉ (opening style).toList
  closing_free : ' ' ∉ closing.toList ∧ '\n' ∉ closing.toList

namespace Palette

/-- The numbers that the escape sequences for graphic renditions have for a style. -/
def rendition : Style → String
  | .purple => "35"
  | .blue => "34"
  | .green => "32"
  | .yellow => "33"
  | .red => "31"
  | .boldRed => "1;31"

/-- The escape sequences for graphic renditions. -/
def escapes : Palette where
  opening style := "\x1b[" ++ rendition style ++ "m"
  closing := "\x1b[0m"
  opening_free style := by
    cases style <;> decide
  closing_free := by
    decide

end Palette

/-- The letter of a severity, in its style if it is coloured. -/
def marker (palette : Palette) (coloured : Bool) (severity : Severity) : String :=
  let letter := String.singleton severity.letter
  if coloured then
    palette.opening (style severity) ++ letter ++ palette.closing
  else
    letter

/-- A line in which the part for the stamp is already text. -/
def render
    (palette : Palette)
    (coloured : Bool)
    (stamp : String)
    (line : Line) :
    String :=
  line.tag ++ " " ++ marker palette coloured line.severity ++ " " ++ stamp ++
    " " ++ line.file ++ ":" ++ Decimal.text line.line.toNat ++ "] " ++
    line.message

/-- A line as the terminal shows it, without the line feed that ends it. -/
def text
    (palette : Palette)
    (coloured : Bool)
    (stamp : Stamp)
    (line : Line) :
    String :=
  render palette coloured stamp.text line

end GatedLog.TerminalLine
