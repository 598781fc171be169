import GatedLog.Aborter
import GatedLog.Logger

/-!
# Contexts

A context is one domain of logging: a threshold, the active logger and aborter,
the tag that goes with every line, and whether it was initialized.

The threshold is kept in one byte, so that it can be read without waiting for
anybody.  Only bytes of severities are ever stored; any other byte would read
as the severity that new contexts start with.
-/

namespace GatedLog

/-- A severity kept in one byte. -/
structure Threshold where
  byte : UInt8
  deriving DecidableEq, Repr

namespace Threshold

/-- The severity of a context that nobody has configured. -/
def standard : Severity :=
  .info

/-- The byte of a severity. -/
def ofSeverity (severity : Severity) : Threshold :=
  ⟨UInt8.ofNat severity.rank⟩

/-- The severity in a byte. -/
def severity (threshold : Threshold) : Severity :=
  (Severity.ofRank? threshold.byte.toNat).getD standard

@[simp]
theorem severity_ofSeverity (severity : Severity) :
    (ofSeverity severity).severity = severity := by
  cases severity <;> rfl

end Threshold

/-- One domain of logging. -/
structure Context where
  threshold : Threshold
  logger : Logger
  aborter : Aborter
  /-- The name of the program, passed on with every line. -/
  tag : String
  /-- Whether a first initialization has taken place. -/
  initialized : Bool

namespace Context

/-- A context that nobody has configured. -/
def new (logger : Logger) (aborter : Aborter) (tag : String) : Context where
  threshold := .ofSeverity Threshold.standard
  logger := logger
  aborter := aborter
  tag := tag
  initialized := false

/--
The context that a process has before anybody configures one: it prints to the
terminal without colours, and its aborter ends the process.
-/
def standard (tag : String) : Context :=
  new (.terminal false) .terminate tag

/-- The least severity that passes, the fatal tiers apart. -/
def minimum (context : Context) : Severity :=
  context.threshold.severity

/-- Whether a record of some severity would reach the logger. -/
def shouldEmit (context : Context) (severity : Severity) : Bool :=
  severity.isFatal || decide (context.minimum ≤ severity)

/-- The same context with another threshold. -/
def withMinimum (context : Context) (severity : Severity) : Context :=
  { context with threshold := .ofSeverity severity }

@[simp]
theorem minimum_withMinimum
    (context : Context)
    (severity : Severity) :
    (context.withMinimum severity).minimum = severity := by
  simp [minimum, withMinimum]

/-- The fatal tiers pass every threshold. -/
theorem shouldEmit_of_isFatal
    (context : Context)
    {severity : Severity}
    (fatal : severity.isFatal = true) :
    context.shouldEmit severity = true := by
  simp [shouldEmit, fatal]

end Context

end GatedLog
