import GatedLog.Line
import GatedLog.SystemError
import GatedLog.Text.Path

/-!
# Records

A record is one log event while it is being written.  Its header and its error
number are fixed when it is begun; its text grows by fragments.  The message
that it stands for in the end is the text, followed by the description of the
error if there is one.  Nothing happens outside a record before it is closed.
-/

namespace GatedLog

/-- One log event under construction. -/
structure Record extends Header where
  /-- The number of the operating-system error to be described at the end. -/
  error : Option Int32
  /-- The text written so far, without the description of the error. -/
  text : String
  deriving DecidableEq, Repr

namespace Record

/-- A new record without text.  Of the path of its file the last component is kept. -/
def start
    (file : String)
    (line : UInt32)
    (channel : Channel)
    (severity : Severity)
    (error : Option Int32) :
    Record where
  channel := channel
  severity := severity
  file := Text.basename file
  line := line
  error := error
  text := ""

/-- A record with one more fragment of text. -/
def append (record : Record) (fragment : String) : Record :=
  { record with text := record.text ++ fragment }

/-- A record with several more fragments, in order. -/
def appendAll (record : Record) (fragments : List String) : Record :=
  fragments.foldl append record

/-- What follows the text of a record: the description of its error, if any. -/
def errorSuffix : Option Int32 → String
  | none => ""
  | some code => ": " ++ SystemError.describe code

theorem errorSuffix_eq (error : Option Int32) :
    errorSuffix error =
      error.elim "" fun code => ": " ++ SystemError.describe code := by
  cases error <;> rfl

/-- The message that a record stands for when it is closed. -/
def message (record : Record) : String :=
  record.text ++ errorSuffix record.error

@[simp]
theorem append_error (record : Record) (fragment : String) :
    (record.append fragment).error = record.error :=
  rfl

@[simp]
theorem append_text (record : Record) (fragment : String) :
    (record.append fragment).text = record.text ++ fragment :=
  rfl

end Record

end GatedLog
