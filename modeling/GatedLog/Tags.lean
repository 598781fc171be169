import GatedLog.Severity
import GatedLog.Text.Utf8

/-!
# Tags: a threshold as text

The threshold can be given from outside as a list of tokens, joined by single
spaces.  A token is `*:` followed by one level letter.  The last token wins,
but all of them have to be well formed.  Both `f` and `s` stand for the lower of
the two fatal tiers: a fatal record can never be silenced, so no token reaches
further.

The text may come from an environment variable, whose value is a byte string.
A value that is not UTF-8 reads as if the variable were unset.
-/

namespace GatedLog

/-- Why tags could not be turned into a threshold. -/
inductive TagsError where
  /-- A token is not well formed; all of the tags are kept for the report. -/
  | unsupported (token tags : String)
  /-- The tags themselves could not be read. -/
  | unreadable (reason : String)
  deriving DecidableEq, Repr

/-- The report of bad tags. -/
def TagsError.message : TagsError → String
  | .unsupported token tags =>
    "unsupported '" ++ token ++ "' in ANDROID_LOG_TAGS (" ++ tags ++ ")"
  | .unreadable reason =>
    "unreadable ANDROID_LOG_TAGS: " ++ reason

namespace Tags

/-- The threshold that a level letter stands for. -/
def levelOf? : Char → Option Severity
  | 'v' => some .verbose
  | 'd' => some .debug
  | 'i' => some .info
  | 'w' => some .warning
  | 'e' => some .error
  | 'f' => some .fatalWithoutAbort
  | 's' => some .fatalWithoutAbort
  | _ => none

/-- The threshold that a token stands for. -/
def parseToken? (token : String) : Option Severity :=
  match token.toList with
  | ['*', ':', letter] => levelOf? letter
  | _ => none

/-- The pieces of the tags between single spaces. -/
def segments (tags : String) : List String :=
  (tags.toList.splitOn ' ').map String.ofList

/--
The threshold after a run of tokens, starting from one given by earlier tokens;
the first token that is not well formed is the error.
-/
def lastLevel (earlier : Option Severity) : List String → Except String (Option Severity)
  | [] => .ok earlier
  | token :: rest =>
    match parseToken? token with
    | some severity => lastLevel (some severity) rest
    | none => .error token

/-- The threshold that tags stand for. -/
def parse (tags : String) : Except TagsError Severity :=
  match lastLevel none (segments tags) with
  | .ok (some severity) => .ok severity
  | .ok none => .error (.unsupported "" tags)
  | .error token => .error (.unsupported token tags)

/-- The tags in an environment variable's value; unset and unreadable are alike. -/
def ofEnvironment (value : Option (List UInt8)) : Option String :=
  value.bind Utf8.decode?

end Tags

end GatedLog
