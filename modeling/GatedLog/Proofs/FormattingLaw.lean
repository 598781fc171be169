import GatedLog.Proofs.Argument

/-!
# Formatting with side effects

A formatted argument can do more than write text, and it can stop early in four
ways: it comes to its end, it reports an error, it panics, or a record of its
own aborts.  The record that it is formatted into is closed on all of these
ways, after everything that the argument has brought about.  It then has the
fragments that were written before the formatting stopped, and it meets the
threshold that the argument has left behind.
-/

namespace GatedLog

/-! ## Nothing takes effect after the first piece that stops the formatting -/

/-- No aborter returns to the emission that called it. -/
theorem emit_departs
    {header : Header}
    (aborting : header.severity.aborts = true)
    (message : String)
    (host : Host) :
    ∃ departure, (emit header message host).exit = .error departure := by
  cases dispatched : (Emission.dispatch header message host).exit with
  | error departure =>
      rw [emit, Operation.andThen_of_error dispatched]
      exact ⟨departure, rfl⟩
  | ok aborter =>
      rw [emit, Operation.andThen_of_ok dispatched, if_pos aborting]
      cases announced :
          (aborter.announce (Emission.dispatch header message host).state).exit with
      | error departure =>
          rw [Aborter.call, Operation.andThen_of_error announced]
          exact ⟨departure, rfl⟩
      | ok value =>
          rw [Aborter.call, Operation.andThen_of_ok announced]
          exact ⟨aborter.departure message, rfl⟩

theorem Record.close_departs
    {record : Record}
    (aborting : record.severity.aborts = true)
    (host : Host) :
    ∃ departure, (record.close host).exit = .error departure := by
  have passes : host.shouldEmit record.severity = true :=
    host.context.shouldEmit_of_isFatal (Severity.isFatal_of_aborts aborting)
  rw [Record.close, if_pos passes]
  exact emit_departs aborting record.message host

namespace Argument

/-- What follows a piece that stops the formatting might as well not be there. -/
theorem write_of_stops
    {stop : Piece}
    (stops : stop.stops = true)
    (before after : List Piece) :
    write (before ++ stop :: after) = write (before ++ [stop]) := by
  induction before with
  | nil =>
      funext host
      cases stop with
      | nested record =>
          rcases Record.close_departs stops host with ⟨departure, left⟩
          simp only [List.nil_append, write, Argument.after, left]
      | panic message =>
          rfl
      | error =>
          rfl
      | _ =>
          cases stops
  | cons piece rest induction =>
      funext host
      cases piece <;> simp only [List.cons_append, write, induction]

/-! ## How the formatting is left -/

/-- How formatting is left, by the last of the pieces that take effect. -/
def exit (aborter : Aborter) (argument : List Piece) : Except Departure Written :=
  match (performed argument).getLast? with
  | some (.nested record) =>
      if record.severity.aborts then
        .error (aborter.departure record.message)
      else
        .ok .complete
  | some (.panic message) => .error (.panicked message)
  | some .error => .ok .failed
  | _ => .ok .complete

theorem performed_eq_nil_iff {argument : List Piece} :
    performed argument = [] ↔ argument = [] := by
  cases argument with
  | nil =>
      simp [performed]
  | cons piece rest =>
      simp [performed]

/-- A piece that does not stop the formatting leaves its exit to the others. -/
theorem exit_of_continues
    {piece : Piece}
    (continues : piece.stops = false)
    (aborter : Aborter)
    (rest : List Piece) :
    exit aborter (piece :: rest) = exit aborter rest := by
  cases rest with
  | nil =>
      cases piece with
      | nested record =>
          have returns : record.severity.aborts = false := continues
          simp [exit, performed, returns]
      | panic message =>
          cases continues
      | error =>
          cases continues
      | _ =>
          rfl
  | cons next others =>
      have more : performed (next :: others) ≠ [] := by
        simp [performed_eq_nil_iff]
      rw [exit, performed_of_continues continues, List.getLast?_cons_of_ne_nil more]
      rfl

variable {host : Host}

theorem write_exit
    (argument : List Piece)
    (reliable : host.context.logger.Reliable) :
    (write argument host).outcome.exit = exit host.context.aborter argument := by
  induction argument generalizing host with
  | nil =>
      rfl
  | cons piece rest induction =>
      cases piece with
      | text fragment =>
          rw [exit_of_continues rfl]
          exact induction reliable
      | nested record =>
          have closed := record.close_emits reliable
          have context_eq := closed.context_eq
          cases aborting : record.severity.aborts with
          | true =>
              have left :
                  (record.close host).exit =
                    .error (host.context.aborter.departure record.message) := by
                rw [closed.exit_eq]
                exact if_pos aborting
              simp only [write, Argument.after, left]
              simp [Writing.stopped, exit, performed, Piece.stops, aborting]
          | false =>
              have returned : (record.close host).exit = .ok () := by
                rw [closed.exit_eq]
                exact if_neg (by simp [Emission.aborts, Record.emission, aborting])
              have continues : (Piece.nested record).stops = false := aborting
              rw [exit_of_continues continues, ← context_eq]
              simp only [write, Argument.after, returned]
              exact induction (context_eq.symm ▸ reliable)
      | threshold severity =>
          rw [exit_of_continues rfl, Argument.write_threshold]
          exact induction reliable
      | errno code =>
          rw [exit_of_continues rfl]
          exact induction reliable
      | panic message =>
          rfl
      | error =>
          rfl

end Argument

/-! ## The threshold that the pieces leave behind -/

/-- The threshold that a piece installs, if any. -/
def Piece.threshold? : Piece → Option Severity
  | .threshold severity => some severity
  | _ => none

namespace Argument

/-- The last threshold that pieces install, or else the one there was. -/
def lastMinimum (context : Context) (pieces : List Piece) : Severity :=
  (pieces.filterMap Piece.threshold?).getLastD context.minimum

theorem minimum_foldl_contextAfter (context : Context) (pieces : List Piece) :
    (pieces.foldl Piece.contextAfter context).minimum =
      lastMinimum context pieces := by
  induction pieces generalizing context with
  | nil =>
      rfl
  | cons piece rest induction =>
      rw [List.foldl_cons, induction]
      cases piece with
      | threshold severity =>
          simp [lastMinimum, Piece.threshold?, Piece.contextAfter,
            List.getLastD_eq_getLast?, List.getLast?_cons]
      | _ =>
          rfl

/-- The pieces after others go on in the context that those have left. -/
theorem emissionsOf_append (context : Context) (before after : List Piece) :
    emissionsOf context (before ++ after) =
      emissionsOf context before ++
        emissionsOf (before.foldl Piece.contextAfter context) after := by
  induction before generalizing context with
  | nil =>
      rfl
  | cons piece rest induction =>
      simp only [List.cons_append, emissionsOf, List.foldl_cons, induction,
        List.append_assoc]

end Argument

/-! ## The law -/

/-- What it comes to that an argument is formatted into a record that is then closed. -/
structure Record.FormattingLaw
    (record : Record)
    (argument : List Piece)
    (host : Host) : Prop where
  /-- Nothing takes effect after the first piece that stops the formatting. -/
  cut :
    ∀ (before : List Piece) (stop : Piece) (after : List Piece),
      argument = before ++ stop :: after →
        stop.stops = true →
          record.writeAndClose argument host =
            record.writeAndClose (before ++ [stop]) host
  /--
  First come the emissions of the argument, each as a whole and in order.  Then,
  on every way out, comes that of the record, once, with the fragments that were
  written, unless the threshold filters it that the argument has left behind.
  -/
  received :
    (record.writeAndClose argument host).events.map Event.reception =
      (Argument.emissions host.context argument).flatMap Emission.receptions ++
        if (Argument.contextAfter host.context argument).shouldEmit
            record.severity then
          Emission.receptions
            ⟨Argument.contextAfter host.context argument, record.toHeader,
              record.text ++ String.join (Argument.fragments argument) ++
                record.error.elim "" fun code =>
                  ": " ++ SystemError.describe code⟩
        else
          []
  /-- A nested record meets the threshold that the pieces before it have left. -/
  filtered :
    ∀ (before : List Piece) (inner : Record) (after : List Piece),
      Argument.performed argument = before ++ .nested inner :: after →
        ∃ reached : Context,
          reached.minimum = Argument.lastMinimum host.context before ∧
            reached = { host.context with threshold := reached.threshold } ∧
            Argument.emissions host.context argument =
              Argument.emissionsOf host.context before ++
                (if reached.shouldEmit inner.severity then
                    [inner.emission reached]
                  else
                    []) ++
                  Argument.emissionsOf reached after
  /-- What is left behind of all that is the last threshold. -/
  left :
    (record.writeAndClose argument host).state.context =
        { host.context with
          threshold :=
            (Argument.contextAfter host.context argument).threshold } ∧
      (record.writeAndClose argument host).state.context.minimum =
        Argument.lastMinimum host.context (Argument.performed argument)
  /-- A record that does not abort is left the way the formatting was left. -/
  returned :
    record.severity.aborts = false →
      (record.writeAndClose argument host).exit =
        Argument.exit host.context.aborter argument
  /-- A record that aborts leaves by its own abort if the formatting returned. -/
  aborted :
    record.severity.aborts = true →
      ∀ written : Written,
        Argument.exit host.context.aborter argument = .ok written →
          (record.writeAndClose argument host).exit =
            .error
              (host.context.aborter.departure (record.written argument).message)
  /-- It is the same for the process-wide context, if that is the one at hand. -/
  alike :
    host.shared = none →
      record.writeAndCloseShared argument host =
        record.writeAndClose argument host

section Law

variable
    {host : Host}
    (record : Record)
    (argument : List Piece)

@[simp]
theorem Record.severity_written :
    (record.written argument).severity = record.severity :=
  rfl

theorem Record.writeAndClose_exit
    (reliable : host.context.logger.Reliable)
    (unwinds : host.context.aborter.Unwinds) :
    (record.writeAndClose argument host).exit =
      Outcome.exitAfterWork
        (Argument.exit host.context.aborter argument)
        ((record.written argument).emission
          (Argument.contextAfter host.context argument)).exit := by
  have performs := Argument.write_performs argument reliable
  have reached_reliable :
      (Argument.write argument host).outcome.state.context.logger.Reliable := by
    rw [performs.context_eq, Argument.contextAfter_logger]
    exact reliable
  have closed := (record.written argument).close_emits reached_reliable
  simp only [writeAndClose, writeThen]
  rw [Outcome.ensuring_of_alive (performs.alive unwinds), performs.text_eq,
    ← Argument.write_exit argument reliable, ← performs.context_eq,
    ← closed.exit_eq]
  rfl

/-- Whichever context a record belongs to is of no account if there is only one. -/
theorem Record.writeAndCloseShared_of_none
    (alone : host.shared = none)
    (reliable : host.context.logger.Reliable) :
    record.writeAndCloseShared argument host =
      record.writeAndClose argument host := by
  have performs := Argument.write_performs argument reliable
  have still_alone : (Argument.write argument host).outcome.state.shared = none :=
    performs.shared_eq.trans alone
  simp only [writeAndCloseShared, writeAndClose, writeThen, Outcome.ensuring,
    closeShared, Host.onShared_of_none still_alone]

/-- Every argument and every record obey the law, on every way out. -/
theorem Record.formattingLaw_of_reliable
    (reliable : host.context.logger.Reliable)
    (unwinds : host.context.aborter.Unwinds) :
    record.FormattingLaw argument host := by
  have performs := Argument.write_performs argument reliable
  have reached_reliable :
      (Argument.write argument host).outcome.state.context.logger.Reliable := by
    rw [performs.context_eq, Argument.contextAfter_logger]
    exact reliable
  have closed := (record.written argument).close_emits reached_reliable
  have contexts := writeThen_contexts performs closed
  have exit_eq := record.writeAndClose_exit argument reliable unwinds
  have aborter_eq := Argument.contextAfter_aborter host.context argument
  refine ⟨?_, ?_, ?_, ?_, ?_, ?_, ?_⟩
  · intro before stop after equality stops
    simp only [writeAndClose, writeThen, equality,
      Argument.write_of_stops stops before after]
  · have received := writeThen_received performs unwinds closed
    rw [performs.context_eq] at received
    rw [writeAndClose, received, emissions, severity_written]
    split
    · rw [List.flatMap_singleton, ← Record.errorSuffix_eq]
      rfl
    · rfl
  · intro before inner after equality
    refine
      ⟨before.foldl Piece.contextAfter host.context,
        Argument.minimum_foldl_contextAfter host.context before,
        Argument.foldl_contextAfter_eq host.context before, ?_⟩
    rw [Argument.emissions, equality, Argument.emissionsOf_append,
      List.append_assoc]
    rfl
  · rw [writeAndClose, contexts.1]
    exact
      ⟨Argument.contextAfter_eq host.context argument,
        Argument.minimum_foldl_contextAfter _ _⟩
  · intro returns
    have outer :
        ((record.written argument).emission
            (Argument.contextAfter host.context argument)).exit =
          .ok () :=
      if_neg (by simp [Emission.aborts, Record.emission, returns])
    rw [exit_eq, outer]
    cases Argument.exit host.context.aborter argument <;> rfl
  · intro aborting written returned
    have outer :
        ((record.written argument).emission
            (Argument.contextAfter host.context argument)).exit =
          .error
            ((Argument.contextAfter host.context argument).aborter.departure
              (record.written argument).message) :=
      if_pos aborting
    rw [exit_eq, returned, outer, aborter_eq]
    rfl
  · intro alone
    exact record.writeAndCloseShared_of_none argument alone reliable

end Law

namespace Argument

/-- Text, nested records, thresholds, and a nested abort before the end. -/
def interrupted : List Piece :=
  [.text "one",
    .nested ((Record.start "b.rs" 2 .unspecified .debug none).append "hidden"),
    .threshold .debug,
    .nested ((Record.start "b.rs" 3 .system .debug none).append "shown"),
    .text "\ntwo",
    .threshold .error,
    .nested ((Record.start "b.rs" 4 .unspecified .fatal none).append "bad"),
    .text "three",
    .threshold .fatal]

end Argument

/-- A record of enough severity is received with what was written before the abort. -/
theorem Record.formattingLaw_of_interrupted :
    ((Record.start "src/a.rs" 1 .unspecified .error none).writeAndClose
          Argument.interrupted
          (Host.around
            (Context.new (.channel "main" .main true) (.unwind "main" none)
              "app"))).events.map
        Event.reception =
      [.line (.channel "main" .main true)
          ⟨⟨.system, .debug, "b.rs", 3⟩, "app", "shown"⟩,
        .line (.channel "main" .main true)
          ⟨⟨.unspecified, .fatal, "b.rs", 4⟩, "app", "bad"⟩,
        .abort (.unwind "main" none) "bad",
        .line (.channel "main" .main true)
          ⟨⟨.unspecified, .error, "a.rs", 1⟩, "app", "one"⟩,
        .line (.channel "main" .main true)
          ⟨⟨.unspecified, .error, "a.rs", 1⟩, "app", "two"⟩] := by
  have law :=
    @formattingLaw_of_reliable
      (Host.around
        (Context.new (.channel "main" .main true) (.unwind "main" none) "app"))
      (Record.start "src/a.rs" 1 .unspecified .error none)
      Argument.interrupted
      (fun _ => rfl) nofun
  rw [law.received]
  rfl

end GatedLog
