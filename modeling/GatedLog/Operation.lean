import GatedLog.Event

/-!
# Operations, their outcomes, and ways to leave them

An operation starts in a state and has an outcome: how it was left, the state
it leaves behind, and what loggers and aborters received on the way, in order.
An operation either returns a value or departs.  A departure goes past all
operations that were to follow, but keeps the state and the events so far.

Some work has to be done on every way out of an operation, except when the
process has ended.  If that work departs while the operation is already being
left, nobody is there to catch two departures at once, and the process ends.
An end of that kind is announced on the terminal.  An aborter that ends the
process does so without a word.
-/

namespace GatedLog

/-- Why a process ends before its time. -/
inductive Termination where
  /-- An aborter ended it. -/
  | aborter
  /-- An operation that was being left departed once more. -/
  | secondDeparture
  deriving DecidableEq, Repr

/-- What an ending process says on the terminal, after everything else on it. -/
def Termination.lastWords? : Termination → Option String
  | .aborter => none
  | .secondDeparture => some "thread caused non-unwinding panic. aborting."

/-- How an operation is left without returning. -/
inductive Departure where
  /-- An aborter left for the nearest catching caller, with its message. -/
  | aborted (message : String)
  /-- A logger or a formatted argument panicked. -/
  | panicked (message : String)
  /-- The process ended abnormally. -/
  | terminated (cause : Termination)
  deriving DecidableEq, Repr

/-- What an operation leaves behind. -/
structure Outcome (State Value : Type) where
  /-- The value that was returned, or the departure. -/
  exit : Except Departure Value
  state : State
  events : List Event

namespace Outcome

/-- An outcome preceded by earlier events. -/
def after
    {State Value : Type}
    (earlier : List Event)
    (outcome : Outcome State Value) :
    Outcome State Value :=
  { outcome with events := earlier ++ outcome.events }

/-- An outcome with a function applied to the returned value. -/
def mapValue
    {State Value Image : Type}
    (function : Value → Image)
    (outcome : Outcome State Value) :
    Outcome State Image where
  exit := outcome.exit.map function
  state := outcome.state
  events := outcome.events

/-- An outcome seen in a larger state. -/
def mapState
    {State Larger Value : Type}
    (embedding : State → Larger)
    (outcome : Outcome State Value) :
    Outcome Larger Value where
  exit := outcome.exit
  state := embedding outcome.state
  events := outcome.events

@[simp]
theorem state_after
    {State Value : Type}
    (earlier : List Event)
    (outcome : Outcome State Value) :
    (outcome.after earlier).state = outcome.state :=
  rfl

@[simp]
theorem events_after
    {State Value : Type}
    (earlier : List Event)
    (outcome : Outcome State Value) :
    (outcome.after earlier).events = earlier ++ outcome.events :=
  rfl

@[simp]
theorem state_mapValue
    {State Value Image : Type}
    (function : Value → Image)
    (outcome : Outcome State Value) :
    (outcome.mapValue function).state = outcome.state :=
  rfl

@[simp]
theorem events_mapValue
    {State Value Image : Type}
    (function : Value → Image)
    (outcome : Outcome State Value) :
    (outcome.mapValue function).events = outcome.events :=
  rfl

end Outcome

/-- Something that can be done in a state. -/
abbrev Operation (State Value : Type) : Type :=
  State → Outcome State Value

namespace Operation

/-- Does nothing and returns a value. -/
def done {State Value : Type} (value : Value) : Operation State Value :=
  fun state => ⟨.ok value, state, []⟩

/-- Does nothing and departs. -/
def depart {State Value : Type} (departure : Departure) : Operation State Value :=
  fun state => ⟨.error departure, state, []⟩

/-- One operation, and then another if the first returned. -/
def andThen
    {State Value Next : Type}
    (first : Operation State Value)
    (next : Value → Operation State Next) :
    Operation State Next :=
  fun state =>
    let outcome := first state
    match outcome.exit with
    | .ok value => (next value outcome.state).after outcome.events
    | .error departure => ⟨.error departure, outcome.state, outcome.events⟩

/-- After an operation that returned, the next one goes on where it stopped. -/
theorem andThen_of_ok
    {State Value Next : Type}
    {first : Operation State Value}
    {next : Value → Operation State Next}
    {state : State}
    {value : Value}
    (returned : (first state).exit = .ok value) :
    first.andThen next state =
      (next value (first state).state).after (first state).events := by
  simp [andThen, returned]

/-- After a departure nothing that was to follow takes place. -/
theorem andThen_of_error
    {State Value Next : Type}
    {first : Operation State Value}
    {next : Value → Operation State Next}
    {state : State}
    {departure : Departure}
    (left : (first state).exit = .error departure) :
    first.andThen next state =
      ⟨.error departure, (first state).state, (first state).events⟩ := by
  simp [andThen, left]

/-- Changes the state and returns a value, both from the state so far. -/
def modifyGet
    {State Value : Type}
    (function : State → Value × State) :
    Operation State Value :=
  fun state => ⟨.ok (function state).1, (function state).2, []⟩

/-- Changes the state. -/
def modify {State : Type} (function : State → State) : Operation State Unit :=
  modifyGet fun state => ((), function state)

/-- Notes an event. -/
def note {State : Type} (event : Event) : Operation State Unit :=
  fun state => ⟨.ok (), state, [event]⟩

end Operation

namespace Outcome

/--
How an operation is left that is followed by some work on its way out.  Two
departures at once cannot both be caught: they end the process, unless the
second of them has ended it already.
-/
def exitAfterWork
    {Value : Type} :
    Except Departure Value → Except Departure Unit → Except Departure Value
  | exit, .ok _ => exit
  | .ok _, .error departure => .error departure
  | .error _, .error (.terminated cause) => .error (.terminated cause)
  | .error _, .error _ => .error (.terminated .secondDeparture)

/--
The outcome of an operation that is followed by some work on every way out.
After a termination there is no more work.
-/
def ensuring
    {State Value : Type}
    (outcome : Outcome State Value)
    (work : Operation State Unit) :
    Outcome State Value :=
  match outcome.exit with
  | .error (.terminated _) => outcome
  | exit =>
    ⟨exitAfterWork exit (work outcome.state).exit,
      (work outcome.state).state,
      outcome.events ++ (work outcome.state).events⟩

/-- Unless the process has ended the work is done where the operation was left. -/
theorem ensuring_of_alive
    {State Value : Type}
    {outcome : Outcome State Value}
    (alive : ∀ cause, outcome.exit ≠ .error (.terminated cause))
    (work : Operation State Unit) :
    outcome.ensuring work =
      ⟨exitAfterWork outcome.exit (work outcome.state).exit,
        (work outcome.state).state,
        outcome.events ++ (work outcome.state).events⟩ := by
  unfold ensuring
  split
  · next cause ended => exact absurd ended (alive cause)
  · rfl

end Outcome

end GatedLog
