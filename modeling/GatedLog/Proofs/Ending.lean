import GatedLog.Proofs.Initialization
import GatedLog.Proofs.Writing

/-!
# Aborters that end the process

Where the aborter ends the process, the first emission that aborts is the last
thing to happen.  An operation may have asked for more: there are the pieces of
an argument after a nested record, the record that the argument was formatted
into, whatever was still open.  Of all these emissions those up to the first
that aborts take place, and the others do not.

This is stated once for outcomes.  The induction over an argument and the record
around it then only put emissions before or after one another.
-/

namespace GatedLog

namespace Emission

/-- Of emissions in order, those up to the first that aborts. -/
def upToAbort : List Emission → List Emission
  | [] => []
  | emission :: rest =>
      emission :: if emission.aborts then [] else upToAbort rest

/-- What is received of an emission if its aborter ends the process. -/
def terminalReceptions (emission : Emission) : List Reception :=
  emission.lines ++
    if emission.aborts then [.abort .terminate emission.message] else []

/-- How an operation is left after emissions whose aborter ends the process. -/
def verdict (emissions : List Emission) : Except Departure Unit :=
  if emissions.any aborts then .error (.terminated .aborter) else .ok ()

variable {before after : List Emission}

theorem upToAbort_append_of_quiet
    (quiet : before.any aborts = false)
    (after : List Emission) :
    upToAbort (before ++ after) = before ++ upToAbort after := by
  induction before with
  | nil =>
      rfl
  | cons emission rest induction =>
      rcases Bool.or_eq_false_iff.mp quiet with ⟨here, later⟩
      rw [List.cons_append, upToAbort, here, if_neg Bool.false_ne_true,
        induction later, List.cons_append]

theorem upToAbort_append_of_aborting
    (aborting : before.any aborts = true)
    (after : List Emission) :
    upToAbort (before ++ after) = upToAbort before := by
  induction before with
  | nil =>
      cases aborting
  | cons emission rest induction =>
      rw [List.cons_append, upToAbort, upToAbort]
      cases here : emission.aborts with
      | true =>
          rfl
      | false =>
          have later : rest.any aborts = true := by
            simpa [here] using aborting
          rw [induction later]

theorem upToAbort_of_quiet (quiet : before.any aborts = false) :
    upToAbort before = before := by
  have whole := upToAbort_append_of_quiet quiet []
  rw [List.append_nil] at whole
  rw [whole, upToAbort, List.append_nil]

/-- A single emission takes place in any case. -/
theorem upToAbort_of_single (single : before.length ≤ 1) :
    upToAbort before = before := by
  rcases before with _ | ⟨emission, _ | ⟨other, rest⟩⟩
  · rfl
  · simp [upToAbort]
  · simp at single

theorem receptions_of_terminate
    {emission : Emission}
    (terminates : emission.context.aborter = .terminate) :
    emission.receptions = emission.terminalReceptions := by
  rw [receptions, terminalReceptions, terminates]
  rfl

theorem exit_of_terminate
    {emission : Emission}
    (terminates : emission.context.aborter = .terminate) :
    emission.exit = verdict [emission] := by
  rw [exit, verdict, terminates, List.any_cons, List.any_nil, Bool.or_false]
  rfl

end Emission

/-! ## Outcomes of operations that emit and may end the process -/

/--
An operation asked for emissions, in order.  Those up to the first that aborts
took place, and it is for an abort alone that the process has ended.
-/
structure Outcome.GoesThrough
    {State Value : Type}
    (outcome : Outcome State Value)
    (emissions : List Emission) : Prop where
  received :
    outcome.events.map Event.reception =
      (Emission.upToAbort emissions).flatMap Emission.terminalReceptions
  ended :
    emissions.any Emission.aborts = true →
      outcome.exit = .error (.terminated .aborter)
  alive :
    emissions.any Emission.aborts = false →
      ∀ cause, outcome.exit ≠ .error (.terminated cause)

/-- An operation asks for one emission at most and is left as that emission is. -/
structure Outcome.GoesThroughOne
    (outcome : Outcome Host Unit)
    (emissions : List Emission) : Prop where
  single : emissions.length ≤ 1
  received :
    outcome.events.map Event.reception =
      emissions.flatMap Emission.terminalReceptions
  exit_eq : outcome.exit = Emission.verdict emissions

namespace Outcome

variable
    {State Larger Value Image : Type}
    {outcome : Outcome State Value}
    {before emissions : List Emission}

theorem GoesThroughOne.goesThrough
    {outcome : Outcome Host Unit}
    (one : outcome.GoesThroughOne emissions) :
    outcome.GoesThrough emissions := by
  refine ⟨?_, ?_, ?_⟩
  · rw [one.received, Emission.upToAbort_of_single one.single]
  · intro aborting
    rw [one.exit_eq, Emission.verdict, if_pos aborting]
  · intro quiet cause
    rw [one.exit_eq, Emission.verdict, if_neg (ne_true_of_eq_false quiet)]
    nofun

/-- What asks for no emission and returns has gone through everything. -/
theorem goesThrough_of_silent
    {value : Value}
    (silent : outcome.events = [])
    (returned : outcome.exit = .ok value) :
    outcome.GoesThrough [] := by
  refine ⟨?_, nofun, fun _ cause => ?_⟩
  · rw [silent]
    rfl
  · rw [returned]
    nofun

theorem GoesThrough.mapValue
    (goes : outcome.GoesThrough emissions)
    (function : Value → Image) :
    (outcome.mapValue function).GoesThrough emissions := by
  refine ⟨goes.received, fun aborting => ?_, fun quiet cause => ?_⟩
  · rw [Outcome.mapValue, goes.ended aborting]
    rfl
  · have alive := goes.alive quiet cause
    cases exit : outcome.exit with
    | ok value =>
        simp [Outcome.mapValue, Except.map, exit]
    | error departure =>
        rw [exit] at alive
        simpa [Outcome.mapValue, Except.map, exit] using alive

theorem GoesThrough.mapState
    (goes : outcome.GoesThrough emissions)
    (embedding : State → Larger) :
    (outcome.mapState embedding).GoesThrough emissions :=
  ⟨goes.received, goes.ended, goes.alive⟩

/-- Emissions before an operation that do not abort are followed by its own. -/
theorem GoesThrough.after
    {earlier : List Event}
    (goes : outcome.GoesThrough emissions)
    (quiet : before.any Emission.aborts = false)
    (received :
      earlier.map Event.reception =
        before.flatMap Emission.terminalReceptions) :
    (outcome.after earlier).GoesThrough (before ++ emissions) := by
  have same :
      (before ++ emissions).any Emission.aborts =
        emissions.any Emission.aborts := by
    rw [List.any_append, quiet, Bool.false_or]
  refine ⟨?_, ?_, ?_⟩
  · rw [Outcome.events_after, List.map_append, received, goes.received,
      Emission.upToAbort_append_of_quiet quiet, List.flatMap_append]
  · rw [same]
    exact goes.ended
  · rw [same]
    exact goes.alive

/-- Work on the way out is done unless an emission before it has ended the process. -/
theorem GoesThrough.ensuring
    {outcome : Outcome Host Value}
    {work : Operation Host Unit}
    (goes : outcome.GoesThrough before)
    (worked : (work outcome.state).GoesThroughOne emissions) :
    (outcome.ensuring work).GoesThrough (before ++ emissions) := by
  cases aborting : before.any Emission.aborts with
  | true =>
      have ended := goes.ended aborting
      have unchanged : outcome.ensuring work = outcome := by
        simp only [Outcome.ensuring, ended]
      rw [unchanged]
      refine ⟨?_, fun _ => ended, ?_⟩
      · rw [goes.received, Emission.upToAbort_append_of_aborting aborting]
      · rw [List.any_append, aborting, Bool.true_or]
        intro quiet
        cases quiet
  | false =>
      have alive := goes.alive aborting
      have same :
          (before ++ emissions).any Emission.aborts =
            emissions.any Emission.aborts := by
        rw [List.any_append, aborting, Bool.false_or]
      rw [Outcome.ensuring_of_alive alive]
      refine ⟨?_, ?_, ?_⟩
      · rw [List.map_append, goes.received, worked.received,
          Emission.upToAbort_of_quiet aborting,
          Emission.upToAbort_append_of_quiet aborting,
          Emission.upToAbort_of_single worked.single, List.flatMap_append]
      · rw [same]
        intro ends
        simp only [worked.exit_eq, Emission.verdict, if_pos ends]
        cases outcome.exit <;> rfl
      · rw [same]
        intro quiet cause
        have returned : (work outcome.state).exit = .ok () := by
          rw [worked.exit_eq]
          exact if_neg (ne_true_of_eq_false quiet)
        simp only [returned, Outcome.exitAfterWork]
        exact alive cause

end Outcome

/-! ## Operations where the aborter ends the process -/

/-- All aborters end the process. -/
def Host.Terminates (host : Host) : Prop :=
  host.Everywhere fun context => context.aborter = .terminate

/-- A record that passes the threshold is emitted; of another there is nothing. -/
theorem Record.emissions_cases (record : Record) (context : Context) :
    record.emissions context = [record.emission context] ∨
      record.emissions context = [] ∧ record.severity.aborts = false := by
  cases passes : context.shouldEmit record.severity with
  | true =>
      exact Or.inl (if_pos passes)
  | false =>
      refine Or.inr ⟨if_neg (ne_true_of_eq_false passes), ?_⟩
      cases aborting : record.severity.aborts with
      | true =>
          have passing :=
            context.shouldEmit_of_isFatal (Severity.isFatal_of_aborts aborting)
          exact passing.symm.trans passes
      | false =>
          rfl

/-- No threshold keeps a record that aborts from its emission. -/
theorem Record.any_aborts_emissions (record : Record) (context : Context) :
    (record.emissions context).any Emission.aborts = record.severity.aborts := by
  rcases record.emissions_cases context with emitted | ⟨nothing, quiet⟩
  · rw [emitted]
    simp [Emission.aborts, emission]
  · rw [nothing, quiet]
    rfl

/-- What closes a record in a context goes through its emission there. -/
theorem Record.goesThroughOne_of_emits
    {host : Host}
    {context : Context}
    {record : Record}
    {outcome : Outcome Host Unit}
    (terminates : context.aborter = .terminate)
    (closed :
      outcome.Emits host (record.emission context).exit
        ((record.emissions context).flatMap Emission.receptions)) :
    outcome.GoesThroughOne (record.emissions context) := by
  have at_end : (record.emission context).context.aborter = .terminate :=
    terminates
  rcases record.emissions_cases context with emitted | ⟨nothing, quiet⟩
  · rw [emitted] at closed ⊢
    refine ⟨Nat.le_refl 1, ?_, ?_⟩
    · rw [closed.received, List.flatMap_singleton, List.flatMap_singleton,
        Emission.receptions_of_terminate at_end]
    · rw [closed.exit_eq, Emission.exit_of_terminate at_end]
  · rw [nothing] at closed ⊢
    refine ⟨Nat.zero_le 1, closed.received, ?_⟩
    rw [closed.exit_eq]
    exact if_neg (ne_true_of_eq_false quiet)

theorem Record.close_goesThroughOne
    {host : Host}
    (record : Record)
    (reliable : host.context.logger.Reliable)
    (terminates : host.context.aborter = .terminate) :
    (record.close host).GoesThroughOne (record.emissions host.context) :=
  goesThroughOne_of_emits terminates (record.close_emits reliable)

theorem Record.closeShared_goesThroughOne
    {host : Host}
    (record : Record)
    (reliable : host.sharedContext.logger.Reliable)
    (terminates : host.sharedContext.aborter = .terminate) :
    (record.closeShared host).GoesThroughOne
      (record.emissions host.sharedContext) :=
  goesThroughOne_of_emits terminates (record.closeShared_emits reliable)

theorem emit_goesThrough
    {host : Host}
    (header : Header)
    (message : String)
    (reliable : host.context.logger.Reliable)
    (terminates : host.context.aborter = .terminate) :
    (emit header message host).GoesThrough [⟨host.context, header, message⟩] := by
  have emitted := emit_emits header message reliable
  have at_end :
      (⟨host.context, header, message⟩ : Emission).context.aborter =
        .terminate :=
    terminates
  have one :
      (emit header message host).GoesThroughOne
        [⟨host.context, header, message⟩] := by
    refine ⟨Nat.le_refl 1, ?_, ?_⟩
    · rw [emitted.received, List.flatMap_singleton,
        Emission.receptions_of_terminate at_end]
    · rw [emitted.exit_eq, Emission.exit_of_terminate at_end]
  exact one.goesThrough

/-- A first initialization with bad tags goes through the report of them. -/
theorem Initialization.run_goesThrough
    {request : Initialization}
    (host : Host)
    (reliable : request.logger.Reliable)
    (terminates : request.aborter = .terminate) :
    (request.run host).GoesThrough (request.emissions host) := by
  have ran := @run_emits request host reliable
  cases result : (request.apply host.context).1 with
  | none =>
      simp only [exit, emissions, result] at ran ⊢
      exact
        Outcome.goesThrough_of_silent (List.map_eq_nil_iff.mp ran.received)
          ran.exit_eq
  | some problem =>
      have installed :
          (request.contextAfter host.context).aborter = .terminate :=
        (request.contextAfter_aborter host.context).trans terminates
      simp only [exit, emissions, result] at ran ⊢
      rw [← report_emissions] at ran ⊢
      exact (Record.goesThroughOne_of_emits installed ran).goesThrough

namespace Argument

variable {host : Host}

theorem emissions_of_stops
    {piece : Piece}
    (stops : piece.stops = true)
    (context : Context)
    (rest : List Piece) :
    emissions context (piece :: rest) = piece.emissions context := by
  rw [emissions, performed_of_stops stops, emissionsOf, emissionsOf,
    List.append_nil]

theorem emissions_of_continues
    {piece : Piece}
    (continues : piece.stops = false)
    (context : Context)
    (rest : List Piece) :
    emissions context (piece :: rest) =
      piece.emissions context ++
        emissions (piece.contextAfter context) rest := by
  rw [emissions, performed_of_continues continues]
  rfl

/-- A nested record that takes effect and aborts has an emission that aborts. -/
theorem any_aborts_emissions
    {inner : Record}
    {argument : List Piece}
    (member : .nested inner ∈ performed argument)
    (aborting : inner.severity.aborts = true)
    (context : Context) :
    (emissions context argument).any Emission.aborts = true := by
  induction argument generalizing context with
  | nil =>
      cases member
  | cons piece rest induction =>
      cases stops : piece.stops with
      | true =>
          rw [performed_of_stops stops] at member
          rcases List.mem_singleton.mp member with rfl
          rw [emissions_of_stops stops, Piece.emissions,
            inner.any_aborts_emissions, aborting]
      | false =>
          rw [performed_of_continues stops] at member
          rcases List.mem_cons.mp member with rfl | later
          · exact absurd (aborting.symm.trans stops) Bool.false_ne_true.symm
          · rw [emissions_of_continues stops, List.any_append,
              induction later, Bool.or_true]

/-- A nested record that aborts is the last that formatting goes through. -/
theorem write_nested_goesThrough
    (record : Record)
    (rest : List Piece)
    (reliable : host.context.logger.Reliable)
    (terminates : host.context.aborter = .terminate)
    (induction :
      ∀ host : Host, host.context.logger.Reliable →
        host.context.aborter = .terminate →
          (write rest host).outcome.GoesThrough
            (emissions host.context rest)) :
    (write (.nested record :: rest) host).outcome.GoesThrough
      (emissions host.context (.nested record :: rest)) := by
  have closed := record.close_emits reliable
  have one := record.close_goesThroughOne reliable terminates
  cases aborting : record.severity.aborts with
  | true =>
      have aborts := record.any_aborts_emissions host.context
      rw [aborting] at aborts
      have stopped :
          (write (.nested record :: rest) host).outcome =
            ⟨.error (.terminated .aborter), (record.close host).state,
              (record.close host).events⟩ := by
        simp only [write, after, one.goesThrough.ended aborts, Writing.stopped]
      have last :
          emissions host.context (.nested record :: rest) =
            record.emissions host.context :=
        @emissions_of_stops (.nested record) aborting host.context rest
      rw [stopped, last]
      refine ⟨one.goesThrough.received, fun _ => rfl, ?_⟩
      rw [aborts]
      intro quiet
      cases quiet
  | false =>
      have quiet := record.any_aborts_emissions host.context
      rw [aborting] at quiet
      have returned : (record.close host).exit = .ok () := by
        rw [one.exit_eq]
        exact if_neg (ne_true_of_eq_false quiet)
      have followed :
          (write (.nested record :: rest) host).outcome =
            ((write rest (record.close host).state).outcome).after
              (record.close host).events := by
        simp only [write, after, returned]
        rfl
      have split :
          emissions host.context (.nested record :: rest) =
            record.emissions host.context ++ emissions host.context rest :=
        @emissions_of_continues (.nested record) aborting host.context rest
      have rest_goes :=
        induction (record.close host).state
          (closed.context_eq.symm ▸ reliable)
          (closed.context_eq.symm ▸ terminates)
      rw [closed.context_eq] at rest_goes
      rw [followed, split]
      exact rest_goes.after quiet one.received

/-- Formatting goes through the emissions of the nested records. -/
theorem write_goesThrough
    (argument : List Piece)
    (reliable : host.context.logger.Reliable)
    (terminates : host.context.aborter = .terminate) :
    (write argument host).outcome.GoesThrough
      (emissions host.context argument) := by
  induction argument generalizing host with
  | nil =>
      exact Outcome.goesThrough_of_silent rfl rfl
  | cons piece rest induction =>
      cases piece with
      | text fragment =>
          rw [emissions_of_continues rfl]
          exact induction reliable terminates
      | nested record =>
          exact
            write_nested_goesThrough record rest reliable terminates
              fun _ => induction
      | threshold severity =>
          rw [emissions_of_continues rfl, write_threshold]
          exact
            @induction
              (host.withContext (host.context.withMinimum severity))
              reliable terminates
      | errno code =>
          rw [emissions_of_continues rfl]
          exact @induction { host with errno := code } reliable terminates
      | panic message =>
          rw [emissions_of_stops rfl]
          exact ⟨rfl, nofun, fun _ _ => nofun⟩
      | error =>
          rw [emissions_of_stops rfl]
          exact Outcome.goesThrough_of_silent rfl rfl

end Argument

namespace Record

variable
    {host : Host}
    (record : Record)
    (argument : List Piece)

/-- An argument is gone through first, and then the record around it. -/
theorem writeThen_goesThrough
    {close : Record → Operation Host Unit}
    {emissions : List Emission}
    (reliable : host.Reliable)
    (terminates : host.Terminates)
    (closed :
      (close (record.written argument)
          (Argument.write argument host).outcome.state).GoesThroughOne
        emissions) :
    (record.writeThen argument close host).GoesThrough
      (Argument.emissions host.context argument ++ emissions) := by
  have performs := Argument.write_performs argument reliable.here
  have written :=
    Argument.write_goesThrough argument reliable.here terminates.here
  simp only [writeThen, performs.text_eq]
  exact written.ensuring closed

theorem terminates_after_write
    (reliable : host.Reliable)
    (terminates : host.Terminates) :
    (Argument.write argument host).outcome.state.Terminates := by
  have performs := Argument.write_performs argument reliable.here
  apply terminates.of_here performs.shared_eq
  rw [performs.context_eq, Argument.contextAfter_aborter]
  exact terminates.here

theorem writeAndClose_goesThrough
    (reliable : host.Reliable)
    (terminates : host.Terminates) :
    (record.writeAndClose argument host).GoesThrough
      (record.emissionsWith argument host.context) := by
  have performs := Argument.write_performs argument reliable.here
  rw [emissionsWith, ← performs.context_eq]
  exact
    record.writeThen_goesThrough argument reliable terminates
      (close_goesThroughOne _
        (reliable_after_write argument reliable).here
        (terminates_after_write argument reliable terminates).here)

theorem writeAndCloseShared_goesThrough
    (reliable : host.Reliable)
    (terminates : host.Terminates) :
    (record.writeAndCloseShared argument host).GoesThrough
      (record.sharedEmissionsWith argument host) := by
  rw [sharedEmissionsWith, ← sharedContext_after_write argument reliable]
  exact
    record.writeThen_goesThrough argument reliable terminates
      (closeShared_goesThroughOne _
        (reliable_after_write argument reliable).shared
        (terminates_after_write argument reliable terminates).shared)

/-- A record whose argument has ended the process is never closed. -/
theorem writeThen_of_ended
    {cause : Termination}
    (ended :
      (Argument.write argument host).outcome.exit =
        .error (.terminated cause))
    (close : Record → Operation Host Unit) :
    record.writeThen argument close host =
      (Argument.write argument host).outcome := by
  simp only [writeThen, Outcome.ensuring, ended]

/-- So a record around a nested one that ends the process is never closed. -/
theorem writeThen_of_nested
    {inner : Record}
    {argument : List Piece}
    (reliable : host.context.logger.Reliable)
    (terminates : host.context.aborter = .terminate)
    (member : .nested inner ∈ Argument.performed argument)
    (fatal : inner.severity = .fatal)
    (close : Record → Operation Host Unit) :
    record.writeThen argument close host =
        (Argument.write argument host).outcome ∧
      (record.writeThen argument close host).exit =
        .error (.terminated .aborter) := by
  have written := Argument.write_goesThrough argument reliable terminates
  have aborting :=
    Argument.any_aborts_emissions member (Severity.aborts_iff.mpr fatal)
      host.context
  have ended := written.ended aborting
  rw [record.writeThen_of_ended argument ended close]
  exact ⟨rfl, ended⟩

end Record

end GatedLog
