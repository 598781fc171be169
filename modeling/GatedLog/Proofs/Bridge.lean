import GatedLog.Proofs.Trail

/-!
# The bridge leads into the same pipeline

A message that comes over the bridge has a way of its own to the process-wide
context.  It ends where the way of a log statement ends: a message is the
statement of the severity that its level stands for, with what it tells of its
origin, and what it does not tell replaced by placeholders.

Of the other interface the bridge needs to know only whether it is in place.
That is all there is to know of any such interface that takes one logger and
passes nothing on before it is opened.
-/

namespace GatedLog.Bridge

/-! ## Messages are statements -/

/-- The file that stands for that of a message which does not tell. -/
def Message.origin (message : Message) : String :=
  message.file.getD "<unknown>"

/-- The log statement that a message amounts to. -/
def Message.statement (message : Message) : Statement where
  file := message.origin
  line := message.line.getD 0
  channel := .unspecified
  severity := message.level.severity
  describesError := false

/-- The number of the last error has no part in a message. -/
theorem Message.record_eq (message : Message) (errno : Int32) :
    message.record = message.statement.record errno :=
  rfl

/-- Of a file that is told the last component is kept. -/
theorem Message.record_toHeader (message : Message) :
    message.record.toHeader =
      ⟨.unspecified, message.level.severity,
        (message.file.map Text.basename).getD "<unknown>",
        message.line.getD 0⟩ := by
  have placeholder : Text.basename "<unknown>" = "<unknown>" := by decide
  cases file : message.file with
  | none =>
      simp [record, Record.start, file, placeholder]
  | some path =>
      simp [record, Record.start, file]

/-- Once the bridge is in place, a message fares like the statement that it amounts to. -/
theorem Message.run_of_bridged
    {host : Host}
    (bridged : host.bridged = true)
    (message : Message)
    (argument : List Piece) :
    message.run argument host = message.statement.run argument host := by
  have same_guard :
      enabled message.level host =
        host.sharedContext.shouldEmit message.statement.severity := by
    rw [enabled, bridged, Bool.true_and]
    rfl
  rw [run, Statement.run, same_guard]
  split <;> rfl

/-- Before that, nothing comes of a message, and its argument is not looked at. -/
theorem Message.run_of_not_bridged
    {host : Host}
    (apart : host.bridged = false)
    (message : Message)
    (argument : List Piece) :
    message.run argument host = Operation.done false host := by
  simp [run, enabled, apart]

/-! ## What changes the bridge -/

/-- Only its installation puts the bridge in place. -/
theorem trail :
    Host.Trail (fun _ => True) fun before _ after =>
      after.bridged = before.bridged where
  refl _ := rfl
  trans first second := second.trans first
  takes _ _ := rfl
  aborts _ _ _ := rfl
  marks _ := rfl
  configures _ _ _ := rfl
  errs _ _ := rfl
  exports _ _ := rfl
  shares _ inside := inside

/-! ## The other interface -/

/-- How much is passed on by an interface that is opened for a level. -/
def Level.verbosity : Level → Nat
  | .error => 1
  | .warn => 2
  | .info => 3
  | .debug => 4
  | .trace => 5

/-- An interface that a logger can be put behind, and that can be opened to levels. -/
structure Facade where
  State : Type
  /-- Puts a logger behind the interface, unless it is refused. -/
  setLogger : State → Option State
  /-- Opens the interface for a level and for all graver ones. -/
  setMaxLevel : Level → State → State
  /-- Whether a record of some level is passed on to a logger behind the interface. -/
  passes : State → Level → Bool

namespace Facade

/-- What is documented of an interface, in the state that a process finds it in. -/
structure Documented (facade : Facade) (fresh : facade.State) : Prop where
  /-- Its level is off until it is set. -/
  closed : ∀ level, facade.passes fresh level = false
  /-- One logger is taken in a process. -/
  accepts : ∃ taken, facade.setLogger fresh = some taken
  /-- And no further one after that. -/
  refuses :
    ∀ taken level,
      facade.setLogger fresh = some taken →
        facade.setLogger (facade.setMaxLevel level taken) = none
  /-- Opened to the least grave level it passes every record on. -/
  opens :
    ∀ taken level,
      facade.setLogger fresh = some taken →
        facade.passes (facade.setMaxLevel .trace taken) level = true

/-- What an interface keeps that does nothing else than what is documented. -/
structure Gate where
  /-- Whether a logger is behind the interface. -/
  taken : Bool
  /-- The least grave level that is passed on, unless the interface is off. -/
  level : Option Level
  deriving DecidableEq, Repr

/-- An interface that nothing was done with yet. -/
def Gate.fresh : Gate where
  taken := false
  level := none

/-- An interface that passes on what is as grave as its level, or graver. -/
def gated : Facade where
  State := Gate
  setLogger gate :=
    if gate.taken then
      none
    else
      some { gate with taken := true }
  setMaxLevel level gate := { gate with level := some level }
  passes gate level :=
    gate.taken &&
      gate.level.any fun least => level.verbosity ≤ least.verbosity

/-- So an interface can be as documented. -/
theorem gated_documented : gated.Documented Gate.fresh where
  closed _ := rfl
  accepts := ⟨_, rfl⟩
  refuses taken level accepted := by
    cases accepted
    rfl
  opens taken level accepted := by
    cases accepted
    cases level <;> rfl

variable {facade : Facade}

/-- Puts the bridge behind an interface, and opens it for all levels. -/
def install (facade : Facade) (state : facade.State) :
    Except InstallError Level × facade.State :=
  match facade.setLogger state with
  | none => (.error .alreadyInstalled, state)
  | some taken => (.ok .trace, facade.setMaxLevel .trace taken)

/-- An interface in the state that goes with a bridge which is in place or is not. -/
def Mirrors (fresh state : facade.State) (bridged : Bool) : Prop :=
  if bridged then
    ∃ taken,
      facade.setLogger fresh = some taken ∧
        state = facade.setMaxLevel .trace taken
  else
    state = fresh

variable
    {fresh state : facade.State}
    (documented : facade.Documented fresh)

include documented

/-- Whether the bridge is in place decides what is passed on. -/
theorem Documented.passes_eq
    {bridged : Bool}
    (mirrors : Mirrors fresh state bridged)
    (level : Level) :
    facade.passes state level = bridged := by
  cases bridged with
  | false =>
      cases mirrors
      exact documented.closed level
  | true =>
      rcases mirrors with ⟨taken, accepted, rfl⟩
      exact documented.opens taken level accepted

/-- The installation of the bridge is what it is with the interface itself. -/
theorem Documented.install_eq
    {host : Host}
    (mirrors : Mirrors fresh state host.bridged) :
    (Bridge.install host).exit = .ok (facade.install state).1 ∧
      Mirrors fresh
        (facade.install state).2 (Bridge.install host).state.bridged := by
  cases bridged : host.bridged with
  | false =>
      rw [bridged] at mirrors
      cases mirrors
      rcases documented.accepts with ⟨taken, accepted⟩
      rw [install_of_not_bridged bridged, install, accepted]
      exact ⟨rfl, taken, accepted, rfl⟩
  | true =>
      rw [bridged] at mirrors
      rcases mirrors with ⟨taken, accepted, rfl⟩
      have refused := documented.refuses taken .trace accepted
      have in_place :
          (Operation.done (.error .alreadyInstalled : Except InstallError Level)
            host).state.bridged = true := bridged
      rw [install_of_bridged bridged, install, refused, in_place]
      exact ⟨rfl, taken, accepted, rfl⟩

end Facade

end GatedLog.Bridge
