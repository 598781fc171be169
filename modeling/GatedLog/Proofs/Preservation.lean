import GatedLog.Bridge
import GatedLog.Configuration
import GatedLog.Statement

/-!
# Properties of the context that operations preserve

What is said here needs nothing of loggers and aborters: they may panic and end
the process as they like.  An operation preserves a property of the context at
hand if the property holds afterwards wherever it held before, however the
operation was left.  Emissions preserve every property.  Formatting preserves
what no threshold can break, and an initialization what its own part under the
lock does not break.
-/

namespace GatedLog

/-- Wherever a property of the context held before, it holds afterwards. -/
def Operation.Preserves
    {Value : Type}
    (Property : Context → Prop)
    (operation : Operation Host Value) : Prop :=
  ∀ host, Property host.context → Property (operation host).state.context

namespace Operation

variable
    {Value Next : Type}
    {Property : Context → Prop}

theorem preserves_of_context_eq
    {operation : Operation Host Value}
    (same : ∀ host, (operation host).state.context = host.context) :
    operation.Preserves Property := by
  intro host holds
  rw [same]
  exact holds

theorem Preserves.andThen
    {first : Operation Host Value}
    {next : Value → Operation Host Next}
    (firstPreserves : first.Preserves Property)
    (nextPreserves : ∀ value, (next value).Preserves Property) :
    (first.andThen next).Preserves Property := by
  intro host holds
  have between := firstPreserves host holds
  cases exit : (first host).exit with
  | ok value =>
      rw [andThen_of_ok exit]
      exact nextPreserves value _ between
  | error departure =>
      rw [andThen_of_error exit]
      exact between

theorem Preserves.mapValue
    {operation : Operation Host Value}
    (preserves : operation.Preserves Property)
    (function : Value → Next) :
    Preserves Property fun host => (operation host).mapValue function :=
  preserves

end Operation

open Operation

section Formatting

variable
    {Property : Context → Prop}
    (threshold :
      ∀ context severity, Property context →
        Property (context.withMinimum severity))

include threshold

theorem Argument.write_preserves
    (argument : List Piece)
    (host : Host)
    (holds : Property host.context) :
    Property (write argument host).outcome.state.context := by
  have goes :
      ∀ {Value : Type} (effect : Operation Host Value) (rest : List Piece),
        effect.Preserves Property →
          (∀ host, Property host.context →
            Property (write rest host).outcome.state.context) →
            ∀ host, Property host.context →
              Property (after effect (write rest) host).outcome.state.context := by
    intro Value effect rest preserves induction host holds
    have between := preserves host holds
    simp only [after]
    split
    · exact induction _ between
    · exact between
  induction argument generalizing host with
  | nil =>
      exact holds
  | cons piece rest induction =>
      cases piece with
      | text fragment =>
          exact induction host holds
      | nested record =>
          exact goes _ rest (preserves_of_context_eq record.close_context)
            induction host holds
      | threshold severity =>
          rw [write_threshold]
          exact induction _ (threshold host.context severity holds)
      | errno code =>
          exact goes _ rest (preserves_of_context_eq fun _ => rfl)
            induction host holds
      | panic message =>
          exact holds
      | error =>
          exact holds

theorem Record.writeThen_preserves
    {close : Record → Operation Host Unit}
    (record : Record)
    (argument : List Piece)
    (closes : ∀ record, (close record).Preserves Property) :
    (record.writeThen argument close).Preserves Property := by
  intro host holds
  have between := Argument.write_preserves threshold argument host holds
  simp only [writeThen, Outcome.ensuring]
  split
  · exact between
  · exact closes _ _ between

theorem Record.writeAndClose_preserves
    (record : Record)
    (argument : List Piece) :
    (record.writeAndClose argument).Preserves Property :=
  record.writeThen_preserves threshold argument fun record =>
    preserves_of_context_eq record.close_context

theorem Record.writeAndCloseShared_preserves
    (record : Record)
    (argument : List Piece) :
    (record.writeAndCloseShared argument).Preserves Property :=
  record.writeThen_preserves threshold argument fun record =>
    preserves_of_context_eq record.closeShared_context

theorem Statement.run_preserves
    (statement : Statement)
    (argument : List Piece) :
    (statement.run argument).Preserves Property := by
  intro host holds
  unfold run
  split
  · exact
      (statement.record host.errno).writeAndCloseShared_preserves
        threshold argument host holds
  · exact holds

theorem Bridge.Message.run_preserves
    (message : Bridge.Message)
    (argument : List Piece) :
    (message.run argument).Preserves Property := by
  intro host holds
  unfold run
  split
  · exact
      message.record.writeAndCloseShared_preserves
        threshold argument host holds
  · exact holds

end Formatting

/-- The report of bad tags has no part in what an initialization leaves behind. -/
theorem Initialization.run_context (request : Initialization) (host : Host) :
    (request.run host).state.context = (request.apply host.context).2 := by
  simp only [run_eq, Operation.andThen, Operation.modifyGet]
  cases (request.apply host.context).1 with
  | none =>
      rfl
  | some problem =>
      exact Record.close_context _ _

theorem Initialization.run_preserves
    {Property : Context → Prop}
    (applies :
      ∀ (request : Initialization) (context : Context), Property context →
        Property (request.apply context).2)
    (request : Initialization) :
    request.run.Preserves Property := by
  intro host holds
  rw [run_context]
  exact applies request host.context holds

theorem Configuration.run_preserves
    {Property : Context → Prop}
    (applies :
      ∀ (request : Initialization) (context : Context), Property context →
        Property (request.apply context).2)
    (configuration : Configuration) :
    configuration.run.Preserves Property := by
  unfold run
  split
  · intro host
    exact Initialization.run_preserves applies _ host
  · exact Initialization.run_preserves applies _

end GatedLog
