import GatedLog.Proofs.Argument
import GatedLog.Proofs.Fault

/-!
# Records under a lower and under a higher threshold

A threshold decides whether a record is emitted, and nothing else: neither the
lines of an emission nor the call of the aborter depend on it.  So what is
received of a record under the higher of two thresholds is what is received of
it under the lower one, less the lines that only the lower one lets through.
That goes for the announcement of an aborter as well, which is a record like
any other.

Loggers are such as take every message and write to no device.  Closing a
record then changes nothing at all of the process.
-/

namespace GatedLog

/--
Whether a threshold has an event stay: it takes away the lines that are below
it and not of the fatal tiers, and nothing else.
-/
def Event.survives (threshold : Severity) : Event → Bool
  | .line _ received _ =>
      received.severity.isFatal || decide (threshold ≤ received.severity)
  | .abort _ _ => true

/-- Everything that is received in the course of an emission, without any device. -/
def Emission.events (emission : Emission) : List Event :=
  emission.handed.map emission.context.logger.taking ++ emission.call

variable
    {host : Host}
    {context : Context}
    {threshold : Severity}
    {record : Record}

/-! ## What is received of a record -/

/-- A record that is closed without any device leaves nothing behind but its events. -/
theorem Record.close_eq
    (record : Record)
    (reliable : host.context.logger.Reliable)
    (deviceless : host.context.logger.Deviceless) :
    record.close host =
      ⟨(record.emission host.context).exit, host,
        (record.emissions host.context).flatMap Emission.events⟩ := by
  cases passes : host.shouldEmit record.severity with
  | true =>
      have single :
          record.emissions host.context = [record.emission host.context] :=
        if_pos passes
      have closed :=
        (close_hands host passes).taken deviceless
          fun line _ => reliable line.message
      rw [closed, single, List.flatMap_singleton]
      rfl
  | false =>
      have quiet : record.severity.aborts ≠ true := by
        intro aborting
        have passing :=
          host.context.shouldEmit_of_isFatal
            (Severity.isFatal_of_aborts aborting)
        exact Bool.false_ne_true (passes.symm.trans passing)
      have nothing : record.emissions host.context = [] :=
        if_neg (ne_true_of_eq_false passes)
      have left : (record.emission host.context).exit = .ok () :=
        if_neg quiet
      rw [close_of_filtered passes, nothing, left]
      rfl

/-! ## Two thresholds -/

theorem Context.shouldEmit_withMinimum (severity : Severity) :
    (context.withMinimum threshold).shouldEmit severity =
      (severity.isFatal || decide (threshold ≤ severity)) := by
  rw [shouldEmit, minimum_withMinimum]

/-- What passes a threshold passes every lower one. -/
theorem Context.shouldEmit_of_raised
    {severity : Severity}
    (ordered : context.minimum ≤ threshold)
    (passes : (context.withMinimum threshold).shouldEmit severity = true) :
    context.shouldEmit severity = true := by
  rw [shouldEmit_withMinimum, Bool.or_eq_true, decide_eq_true_eq] at passes
  rw [shouldEmit, Bool.or_eq_true, decide_eq_true_eq]
  rcases passes with fatal | reaches
  · exact Or.inl fatal
  · exact Or.inr (Nat.le_trans ordered reaches)

/-- Each line of an emission survives if the severity of the emission does. -/
theorem Emission.survives_of_mem_own
    {emission : Emission}
    {line : Line}
    (logger : Logger)
    (member : line ∈ emission.own) :
    (logger.taking line).survives threshold =
      (context.withMinimum threshold).shouldEmit emission.header.severity := by
  rcases List.mem_map.mp member with ⟨text, _, rfl⟩
  rw [Context.shouldEmit_withMinimum]
  rfl

/-- The lines of a record under a higher threshold, all of them or none. -/
theorem Record.own_withMinimum
    (record : Record)
    (ordered : context.minimum ≤ threshold) :
    ((record.emissions (context.withMinimum threshold)).flatMap
        Emission.own).map context.logger.taking =
      (((record.emissions context).flatMap Emission.own).map
        context.logger.taking).filter (Event.survives threshold) := by
  cases passes : (context.withMinimum threshold).shouldEmit record.severity with
  | true =>
      have passes_low := Context.shouldEmit_of_raised ordered passes
      have stays :
          ∀ event ∈ (record.emission context).own.map context.logger.taking,
            event.survives threshold = true := by
        intro event member
        rcases List.mem_map.mp member with ⟨line, line_member, rfl⟩
        rw [Emission.survives_of_mem_own context.logger line_member]
        exact passes
      simp only [emissions, passes, passes_low, if_true, List.flatMap_singleton]
      exact (List.filter_eq_self.mpr stays).symm
  | false =>
      have goes :
          ∀ event ∈ ((record.emissions context).flatMap Emission.own).map
              context.logger.taking,
            ¬ event.survives threshold = true := by
        intro event member
        rcases List.mem_map.mp member with ⟨line, line_member, rfl⟩
        rcases List.mem_flatMap.mp line_member with ⟨emission, emitted, own⟩
        rw [Emission.survives_of_mem_own context.logger own]
        simp only [emissions] at emitted
        split at emitted
        · rcases List.mem_singleton.mp emitted with rfl
          exact ne_true_of_eq_false passes
        · cases emitted
      simp only [emissions, passes, Bool.false_eq_true, if_false,
        List.flatMap_nil, List.map_nil]
      exact (List.filter_eq_nil_iff.mpr goes).symm

/-- The announcement of an aborter is filtered like any other record. -/
theorem Emission.announcing_withMinimum
    (aborter : Aborter)
    (ordered : context.minimum ≤ threshold) :
    (announcing (context.withMinimum threshold) aborter).map
        context.logger.taking =
      ((announcing context aborter).map context.logger.taking).filter
        (Event.survives threshold) := by
  unfold announcing
  split
  · next announcement =>
      exact announcement.record.own_withMinimum ordered
  · rfl

/--
What is received of a record under a higher threshold is what is received of it
under a lower one, less the lines that the higher one takes away.
-/
theorem Record.events_withMinimum
    (record : Record)
    (ordered : context.minimum ≤ threshold) :
    (record.emissions (context.withMinimum threshold)).flatMap
        Emission.events =
      ((record.emissions context).flatMap Emission.events).filter
        (Event.survives threshold) := by
  have own := record.own_withMinimum ordered
  cases aborting : record.severity.aborts with
  | true =>
      have passes := fun reached : Context =>
        reached.shouldEmit_of_isFatal (Severity.isFatal_of_aborts aborting)
      have announced :=
        Emission.announcing_withMinimum context.aborter ordered
      simp only [emissions, passes, if_true, List.flatMap_singleton] at own ⊢
      simp only [Emission.events, Emission.handed, Emission.call,
        Emission.aborts, emission, aborting, if_true, List.map_append,
        List.filter_append, List.append_assoc] at own ⊢
      have called :
          [Event.abort context.aborter record.message] =
            [Event.abort context.aborter record.message].filter
              (Event.survives threshold) := rfl
      exact
        congr (congrArg HAppend.hAppend own)
          (congr (congrArg HAppend.hAppend announced) called)
  | false =>
      have lines_only :
          ∀ reached : Context,
            (record.emissions reached).flatMap Emission.events =
              ((record.emissions reached).flatMap Emission.own).map
                reached.logger.taking := by
        intro reached
        simp only [emissions]
        split
        · simp [Emission.events, Emission.handed, Emission.call,
            Emission.aborts, emission, aborting]
        · rfl
      rw [lines_only, lines_only]
      exact own

end GatedLog
