/-!
# Severities and channels

A record carries a severity and a channel.  Severities are totally ordered,
from `verbose` to `fatal`.  The two highest are the fatal tiers: no threshold
ever filters them, and only the very highest ends in a call of the aborter.

A channel names a logical output.  The unspecified channel is left to the
active logger, which may have a channel of its own to put in its place.
-/

namespace GatedLog

/-- How grave a record is, from the least to the most severe. -/
inductive Severity where
  | verbose
  | debug
  | info
  | warning
  | error
  | fatalWithoutAbort
  | fatal
  deriving DecidableEq, Repr, Inhabited

namespace Severity

/-- Every severity, in ascending order. -/
def all : List Severity :=
  [.verbose, .debug, .info, .warning, .error, .fatalWithoutAbort, .fatal]

/-- The position of a severity in the ascending order, counted from zero. -/
def rank : Severity → Nat
  | .verbose => 0
  | .debug => 1
  | .info => 2
  | .warning => 3
  | .error => 4
  | .fatalWithoutAbort => 5
  | .fatal => 6

/-- The severity at a position of the ascending order, if there is one. -/
def ofRank? (position : Nat) : Option Severity :=
  all[position]?

instance : LE Severity where
  le first second := first.rank ≤ second.rank

instance : LT Severity where
  lt first second := first.rank < second.rank

instance (first second : Severity) : Decidable (first ≤ second) :=
  inferInstanceAs (Decidable (first.rank ≤ second.rank))

instance (first second : Severity) : Decidable (first < second) :=
  inferInstanceAs (Decidable (first.rank < second.rank))

instance : Ord Severity where
  compare first second := compare first.rank second.rank

/-- The upper-case name of a severity. -/
def name : Severity → String
  | .verbose => "VERBOSE"
  | .debug => "DEBUG"
  | .info => "INFO"
  | .warning => "WARNING"
  | .error => "ERROR"
  | .fatalWithoutAbort => "FATAL_WITHOUT_ABORT"
  | .fatal => "FATAL"

/-- The severity with a given upper-case name. -/
def ofName? (text : String) : Option Severity :=
  all.find? fun severity => severity.name == text

/-- The single letter that stands for a severity; the fatal tiers share theirs. -/
def letter : Severity → Char
  | .verbose => 'V'
  | .debug => 'D'
  | .info => 'I'
  | .warning => 'W'
  | .error => 'E'
  | .fatalWithoutAbort => 'F'
  | .fatal => 'F'

/-- The fatal tiers pass every threshold. -/
def isFatal : Severity → Bool
  | .fatalWithoutAbort => true
  | .fatal => true
  | _ => false

/-- Only the highest severity ends in a call of the aborter. -/
def aborts : Severity → Bool
  | .fatal => true
  | _ => false

/--
The priority of the kernel's message buffer, where a smaller number is more
urgent.  It has no level below debugging, so `verbose` shares that one.
-/
def kernelLevel : Severity → Nat
  | .verbose => 7
  | .debug => 7
  | .info => 6
  | .warning => 4
  | .error => 3
  | .fatalWithoutAbort => 2
  | .fatal => 2

theorem isFatal_of_aborts
    {severity : Severity}
    (aborting : severity.aborts = true) :
    severity.isFatal = true := by
  cases severity <;> simp_all [aborts, isFatal]

end Severity

/-- The logical output of a record. -/
inductive Channel where
  /-- Left to the logger that receives the line. -/
  | unspecified
  | main
  | system
  deriving DecidableEq, Repr, Inhabited

namespace Channel

/-- Every channel. -/
def all : List Channel :=
  [.unspecified, .main, .system]

/-- The upper-case name of a channel. -/
def name : Channel → String
  | .unspecified => "DEFAULT"
  | .main => "MAIN"
  | .system => "SYSTEM"

/-- The channel with a given upper-case name. -/
def ofName? (text : String) : Option Channel :=
  all.find? fun channel => channel.name == text

/-- An unspecified channel becomes the fallback; any other stays as it is. -/
def resolve (channel fallback : Channel) : Channel :=
  match channel with
  | .unspecified => fallback
  | .main => .main
  | .system => .system

end Channel

end GatedLog
