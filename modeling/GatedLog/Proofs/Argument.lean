import GatedLog.Argument
import GatedLog.Proofs.Emission
import GatedLog.Proofs.Host

/-!
# What formatting an argument comes to

Which pieces of an argument take effect can be read off the argument: all of
them up to the first that stops the formatting.  A panic and a formatting error
stop it, and so does a nested record of the highest severity, because no
threshold filters it and no aborter returns.

The pieces that take effect determine the rest.  The text is what their
fragments come to, the threshold moves where they move it, and what is received
meanwhile are the emissions of the nested records, each in the context that the
pieces before it have left.
-/

namespace GatedLog

namespace Piece

/-- Whether nothing after a piece takes effect. -/
def stops : Piece → Bool
  | .nested record => record.severity.aborts
  | .panic _ => true
  | .error => true
  | _ => false

/-- The text that a piece writes, if any. -/
def fragment? : Piece → Option String
  | .text fragment => some fragment
  | _ => none

/-- The context that a piece leaves behind. -/
def contextAfter (context : Context) : Piece → Context
  | .threshold severity => context.withMinimum severity
  | _ => context

/-- The emissions that a piece brings about. -/
def emissions (context : Context) : Piece → List Emission
  | .nested record => record.emissions context
  | _ => []

theorem aborter_contextAfter (context : Context) (piece : Piece) :
    (piece.contextAfter context).aborter = context.aborter := by
  cases piece <;> rfl

end Piece

namespace Argument

/-- The pieces that take effect: all up to the first that stops the formatting. -/
def performed : List Piece → List Piece
  | [] => []
  | piece :: rest => piece :: if piece.stops then [] else performed rest

/-- The fragments that are written before the formatting stops. -/
def fragments (argument : List Piece) : List String :=
  (performed argument).filterMap Piece.fragment?

/-- The context after the formatting. -/
def contextAfter (context : Context) (argument : List Piece) : Context :=
  (performed argument).foldl Piece.contextAfter context

/-- The emissions of pieces that all take effect, one after the other. -/
def emissionsOf : Context → List Piece → List Emission
  | _, [] => []
  | context, piece :: rest =>
      piece.emissions context ++
        emissionsOf (piece.contextAfter context) rest

/-- The emissions in the course of the formatting, in order. -/
def emissions (context : Context) (argument : List Piece) : List Emission :=
  emissionsOf context (performed argument)

theorem performed_of_stops
    {piece : Piece}
    (stops : piece.stops = true)
    (rest : List Piece) :
    performed (piece :: rest) = [piece] := by
  rw [performed, if_pos stops]

theorem performed_of_continues
    {piece : Piece}
    (continues : piece.stops = false)
    (rest : List Piece) :
    performed (piece :: rest) = piece :: performed rest := by
  rw [performed, continues, if_neg Bool.false_ne_true]

/-- Nothing but the threshold moves while an argument is formatted. -/
theorem foldl_contextAfter_eq (context : Context) (pieces : List Piece) :
    pieces.foldl Piece.contextAfter context =
      { context with
        threshold := (pieces.foldl Piece.contextAfter context).threshold } := by
  induction pieces generalizing context with
  | nil =>
      rfl
  | cons piece rest induction =>
      rw [List.foldl_cons, induction]
      cases piece <;> rfl

theorem contextAfter_eq (context : Context) (argument : List Piece) :
    contextAfter context argument =
      { context with
        threshold := (contextAfter context argument).threshold } :=
  foldl_contextAfter_eq context (performed argument)

theorem contextAfter_logger (context : Context) (argument : List Piece) :
    (contextAfter context argument).logger = context.logger := by
  rw [contextAfter_eq]

theorem contextAfter_aborter (context : Context) (argument : List Piece) :
    (contextAfter context argument).aborter = context.aborter := by
  rw [contextAfter_eq]

end Argument

/--
A writing that started on a process did what can be read off its argument.  It
can only have ended the process through an aborter that does not unwind.
-/
structure Writing.Performs
    (writing : Writing)
    (host : Host)
    (argument : List Piece) : Prop where
  text_eq : writing.text = String.join (Argument.fragments argument)
  context_eq :
    writing.outcome.state.context = Argument.contextAfter host.context argument
  shared_eq : writing.outcome.state.shared = host.shared
  received :
    writing.outcome.events.map Event.reception =
      (Argument.emissions host.context argument).flatMap Emission.receptions
  alive :
    host.context.aborter.Unwinds →
      ∀ cause, writing.outcome.exit ≠ .error (.terminated cause)

namespace Argument

variable {host : Host}

/-- A piece that stops the formatting is the last one that takes effect. -/
theorem performs_of_stops
    (piece : Piece)
    (rest : List Piece)
    {outcome : Outcome Host Written}
    (stops : piece.stops = true)
    (silent : piece.fragment? = none)
    (context_eq : outcome.state.context = piece.contextAfter host.context)
    (shared_eq : outcome.state.shared = host.shared)
    (received :
      outcome.events.map Event.reception =
        (piece.emissions host.context).flatMap Emission.receptions)
    (alive :
      host.context.aborter.Unwinds →
        ∀ cause, outcome.exit ≠ .error (.terminated cause)) :
    (Writing.stopped outcome).Performs host (piece :: rest) where
  text_eq := by
    simp [Writing.stopped, fragments, performed_of_stops stops, silent]
  context_eq := by
    simp [Writing.stopped, contextAfter, performed_of_stops stops, context_eq]
  shared_eq := shared_eq
  received := by
    simp [Writing.stopped, emissions, emissionsOf, performed_of_stops stops,
      received]
  alive := alive

/-- After a piece that does not stop the formatting, the rest goes on from there. -/
theorem performs_of_continues
    {Value : Type}
    (piece : Piece)
    (rest : List Piece)
    {effect : Operation Host Value}
    {value : Value}
    (continues : piece.stops = false)
    (silent : piece.fragment? = none)
    (returned : (effect host).exit = .ok value)
    (context_eq :
      (effect host).state.context = piece.contextAfter host.context)
    (shared_eq : (effect host).state.shared = host.shared)
    (received :
      (effect host).events.map Event.reception =
        (piece.emissions host.context).flatMap Emission.receptions)
    (performs : (write rest (effect host).state).Performs (effect host).state rest) :
    (after effect (write rest) host).Performs host (piece :: rest) := by
  have followed :
      after effect (write rest) host =
        (write rest (effect host).state).afterEvents (effect host).events := by
    simp only [after, returned]
  rw [followed]
  refine ⟨?_, ?_, ?_, ?_, ?_⟩
  · simp [Writing.afterEvents, performs.text_eq, fragments,
      performed_of_continues continues, silent]
  · simp [Writing.afterEvents, performs.context_eq, contextAfter,
      performed_of_continues continues, context_eq]
  · exact performs.shared_eq.trans shared_eq
  · simp [Writing.afterEvents, performs.received, emissions, emissionsOf,
      performed_of_continues continues, received, context_eq]
  · intro unwinds
    apply performs.alive
    rw [context_eq, piece.aborter_contextAfter]
    exact unwinds

theorem write_nested_performs
    (record : Record)
    (rest : List Piece)
    (reliable : host.context.logger.Reliable)
    (induction :
      ∀ host : Host, host.context.logger.Reliable →
        (write rest host).Performs host rest) :
    (write (.nested record :: rest) host).Performs host (.nested record :: rest) := by
  have closed := record.close_emits reliable
  cases aborting : record.severity.aborts with
  | true =>
      have left :
          (record.close host).exit =
            .error (host.context.aborter.departure record.message) := by
        rw [closed.exit_eq]
        exact if_pos aborting
      have stopped :
          write (.nested record :: rest) host =
            .stopped
              ⟨.error (host.context.aborter.departure record.message),
                (record.close host).state,
                (record.close host).events⟩ := by
        simp only [write, after, left]
      rw [stopped]
      apply performs_of_stops (.nested record) rest aborting rfl
        closed.context_eq closed.shared_eq closed.received
      intro unwinds cause
      simp [Aborter.departure_of_unwinds unwinds]
  | false =>
      have returned : (record.close host).exit = .ok () := by
        rw [closed.exit_eq]
        exact if_neg (by simp [Emission.aborts, Record.emission, aborting])
      apply performs_of_continues (.nested record) rest aborting rfl returned
        closed.context_eq closed.shared_eq closed.received
      apply induction
      rw [closed.context_eq]
      exact reliable

/-- Formatting an argument does what can be read off the argument. -/
theorem write_performs
    (argument : List Piece)
    (reliable : host.context.logger.Reliable) :
    (write argument host).Performs host argument := by
  induction argument generalizing host with
  | nil =>
      refine ⟨rfl, rfl, rfl, rfl, ?_⟩
      intro _ cause ended
      cases ended
  | cons piece rest induction =>
      cases piece with
      | text fragment =>
          have performs := induction reliable
          refine ⟨?_, performs.context_eq, performs.shared_eq,
            performs.received, performs.alive⟩
          simp [write, Writing.afterText, performs.text_eq, fragments,
            performed, Piece.stops, Piece.fragment?]
      | nested record =>
          exact write_nested_performs record rest reliable fun _ => induction
      | threshold severity =>
          have moved := Host.setThreshold_context severity host
          have still_reliable :
              (Host.setThreshold severity host).state.context.logger.Reliable := by
            rw [moved]
            exact reliable
          exact performs_of_continues (.threshold severity) rest
            rfl rfl rfl moved rfl rfl (induction still_reliable)
      | errno code =>
          exact performs_of_continues (.errno code) rest
            rfl rfl rfl rfl rfl rfl (induction reliable)
      | panic message =>
          refine performs_of_stops (.panic message) rest
            rfl rfl rfl rfl rfl ?_
          intro _ cause ended
          cases ended
      | error =>
          refine performs_of_stops .error rest
            rfl rfl rfl rfl rfl ?_
          intro _ cause ended
          cases ended

end Argument

/-! ## Records that an argument is formatted into -/

/-- A record after an argument was formatted into it. -/
def Record.written (record : Record) (argument : List Piece) : Record :=
  record.append (String.join (Argument.fragments argument))

/-- Closing in the process-wide context emits there, and nothing else changes. -/
theorem Record.closeShared_emits
    {host : Host}
    (record : Record)
    (reliable : host.sharedContext.logger.Reliable) :
    (record.closeShared host).Emits host
      (record.emission host.sharedContext).exit
      ((record.emissions host.sharedContext).flatMap Emission.receptions) := by
  cases apart : host.shared with
  | none =>
      have same : host.sharedContext = host.context := by
        simp [Host.sharedContext, apart]
      rw [same] at reliable ⊢
      rw [Record.closeShared, Host.onShared_of_none apart]
      exact record.close_emits reliable
  | some shared =>
      have same : host.sharedContext = shared := by
        simp [Host.sharedContext, apart]
      rw [same] at reliable ⊢
      have closed :
          (record.close { host with context := shared, shared := none }).Emits
            { host with context := shared, shared := none }
            (record.emission shared).exit
            ((record.emissions shared).flatMap Emission.receptions) :=
        record.close_emits reliable
      simp only [Record.closeShared, Host.onShared, apart]
      refine ⟨closed.exit_eq, ?_, closed.received⟩
      simp only [Outcome.mapState]
      rw [closed.state_eq]
      simp [apart]

section WriteThen

variable
    {host : Host}
    {record : Record}
    {argument : List Piece}
    {close : Record → Operation Host Unit}
    {exit : Except Departure Unit}
    {receptions : List Reception}

/--
An argument is formatted into a record, and the record is closed in whichever
context it belongs to: first come the emissions of the argument, then that of
the record.
-/
theorem Record.writeThen_received
    (performs : (Argument.write argument host).Performs host argument)
    (unwinds : host.context.aborter.Unwinds)
    (closed :
      (close (record.written argument)
          (Argument.write argument host).outcome.state).Emits
        (Argument.write argument host).outcome.state exit receptions) :
    (record.writeThen argument close host).events.map Event.reception =
      (Argument.emissions host.context argument).flatMap Emission.receptions ++
        receptions := by
  simp only [Record.writeThen]
  rw [Outcome.ensuring_of_alive (performs.alive unwinds), performs.text_eq]
  rw [List.map_append, performs.received]
  exact congrArg _ closed.received

/-- Whatever the way out, the contexts are as the formatting left them. -/
theorem Record.writeThen_contexts
    (performs : (Argument.write argument host).Performs host argument)
    (closed :
      (close (record.written argument)
          (Argument.write argument host).outcome.state).Emits
        (Argument.write argument host).outcome.state exit receptions) :
    (record.writeThen argument close host).state.context =
        Argument.contextAfter host.context argument ∧
      (record.writeThen argument close host).state.shared = host.shared := by
  simp only [Record.writeThen, Outcome.ensuring]
  split
  · exact ⟨performs.context_eq, performs.shared_eq⟩
  · rw [performs.text_eq]
    exact
      ⟨closed.context_eq.trans performs.context_eq,
        closed.shared_eq.trans performs.shared_eq⟩

end WriteThen

end GatedLog
