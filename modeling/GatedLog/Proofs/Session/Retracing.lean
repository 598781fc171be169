import GatedLog.Proofs.Ending
import GatedLog.Proofs.Session.Run

/-!
# Records that are begun, written and closed step by step

A record can be begun, written and closed in one go, or by three steps of their
own.  In one go it is closed on the way out, however its argument is left; step
by step it stays open until the step that closes it.  For all that is received
and for the process afterwards this makes no difference.  It can make one for
how the record is left: two departures at once end a process, two departures
from two steps do not.
-/

namespace GatedLog.Session

variable
    {session : Session}
    {id : String}
    {records : List (String × Record)}

/-- Reports of two runs that brought about the same, in however many steps. -/
structure Report.Retraces (first second : Report) : Prop where
  events_eq : first.events = second.events
  host_eq : first.final.host = second.final.host
  /-- What is open is the same too, unless the process ended on the way. -/
  final_eq : first.termination = none → first.final = second.final

theorem lookup_append_fresh
    (fresh : records.lookup id = none)
    (record : Record) :
    (records ++ [(id, record)]).lookup id = some record := by
  simp [List.lookup_append, fresh]

theorem replaceRecord_append_fresh
    (fresh : records.lookup id = none)
    (old new : Record) :
    replaceRecord id new (records ++ [(id, old)]) = records ++ [(id, new)] := by
  induction records with
  | nil =>
      simp [replaceRecord]
  | cons entry rest induction =>
      rcases entry with ⟨name, record⟩
      rw [List.lookup_cons] at fresh
      split at fresh
      · cases fresh
      · next other =>
          have different : name ≠ id := by
            intro same
            simp [same] at other
          rw [List.cons_append, replaceRecord, if_neg different,
            induction fresh, List.cons_append]

theorem eraseP_append_fresh
    (fresh : records.lookup id = none)
    (record : Record) :
    ((records ++ [(id, record)]).eraseP fun entry => entry.1 == id) = records := by
  have others : ∀ entry ∈ records, ¬ (entry.1 == id) = true := by
    intro entry member same
    have missed := List.lookup_eq_none_iff.mp fresh entry member
    simp [beq_iff_eq.mp same] at missed
  rw [List.eraseP_append_right _ others]
  simp

/-- The session in which one more record is open. -/
def withRecord (session : Session) (id : String) (record : Record) : Session :=
  { session with records := session.records ++ [(id, record)] }

/-- The session in which an argument was formatted into one more record. -/
def withWriting
    (session : Session)
    (id : String)
    (record : Record)
    (writing : Writing) :
    Session :=
  (session.withHost writing.outcome.state).withRecord id
    (record.append writing.text)

section Retracing

variable
    (fresh : session.records.lookup id = none)
    (record : Record)
    (argument : List Piece)

include fresh

theorem perform_write_fresh :
    perform (.write id argument) (session.withRecord id record) =
      ⟨(Argument.write argument session.host).outcome.exit.map Result.written,
        session.withWriting id record (Argument.write argument session.host),
        (Argument.write argument session.host).outcome.events⟩ := by
  simp only [perform, write, withRecord, lookup_append_fresh fresh,
    replaceRecord_append_fresh fresh]
  rfl

theorem perform_closeRecord_fresh :
    perform (.closeRecord id) (session.withRecord id record) =
      ⟨(record.close session.host).exit.map fun _ => Result.nothing,
        session.withHost (record.close session.host).state,
        (record.close session.host).events⟩ := by
  simp only [perform, silently, closeRecord, withRecord,
    lookup_append_fresh fresh, eraseP_append_fresh fresh]
  rfl

/-- If the formatting ends the process nothing is left to be closed. -/
theorem retraces_record_of_ended
    {cause : Termination}
    (ended :
      (Argument.write argument session.host).outcome.exit =
        .error (.terminated cause)) :
    (runSteps (session.withRecord id record)
        [.write id argument, .closeRecord id]).Retraces
      (runSteps session [.record record argument]) := by
  have written := perform_write_fresh fresh record argument
  have write_ended :
      (perform (.write id argument) (session.withRecord id record)).exit =
        .error (.terminated cause) := by
    rw [written, ended]
    rfl
  have at_once :
      record.writeAndClose argument session.host =
        (Argument.write argument session.host).outcome :=
    record.writeThen_of_ended argument ended Record.close
  rcases runSteps_singleton (.record record argument) session with
    ⟨whole_events, whole_final⟩
  rw [runSteps_of_ended write_ended, written]
  refine ⟨?_, ?_, nofun⟩
  · rw [whole_events, perform, onHost, at_once]
    rfl
  · rw [whole_final, perform, onHost, at_once]
    rfl

/-- Otherwise the record is closed where the formatting was left, one way or the other. -/
theorem retraces_record_of_alive
    (alive :
      ∀ cause,
        (Argument.write argument session.host).outcome.exit ≠
          .error (.terminated cause)) :
    (runSteps (session.withRecord id record)
        [.write id argument, .closeRecord id]).Retraces
      (runSteps session [.record record argument]) := by
  have written := perform_write_fresh fresh record argument
  have write_alive :
      ∀ cause,
        (perform (.write id argument) (session.withRecord id record)).exit ≠
          .error (.terminated cause) := by
    intro cause
    have alive_here := alive cause
    rw [written]
    cases exit : (Argument.write argument session.host).outcome.exit with
    | ok value =>
        nofun
    | error departure =>
        rw [exit] at alive_here
        simpa [Except.map] using alive_here
  have closed :=
    @perform_closeRecord_fresh
      (session.withHost (Argument.write argument session.host).outcome.state)
      id fresh (record.append (Argument.write argument session.host).text)
  have at_once :
      record.writeAndClose argument session.host = _ :=
    Outcome.ensuring_of_alive alive
      (record.append (Argument.write argument session.host).text).close
  rcases runSteps_singleton (.record record argument) session with
    ⟨whole_events, whole_final⟩
  rcases runSteps_singleton (.closeRecord id)
      (session.withWriting id record (Argument.write argument session.host)) with
    ⟨last_events, last_final⟩
  have final_eq :
      (runSteps (session.withRecord id record)
          [.write id argument, .closeRecord id]).final =
        (runSteps session [.record record argument]).final := by
    rw [runSteps_of_alive write_alive, written, Report.afterAnswer, last_final,
      withWriting, closed, whole_final, perform, onHost, at_once]
    rfl
  refine ⟨?_, congrArg Session.host final_eq, fun _ => final_eq⟩
  -- How the closing is left is of no account: no step of this run comes after it.
  rw [events_runSteps_of_alive write_alive, written, last_events, withWriting,
    closed, whole_events, perform, onHost, at_once]
  rfl

/-- Begun, written and closed by steps of their own, a record is as if closed at once. -/
theorem retraces_record :
    (runSteps session
        [.openRecord id record, .write id argument, .closeRecord id]).Retraces
      (runSteps session [.record record argument]) := by
  have opened :
      runSteps session
          [.openRecord id record, .write id argument, .closeRecord id] =
        (runSteps (session.withRecord id record)
          [.write id argument, .closeRecord id]).afterAnswer
          ⟨.ok .nothing, [], Standing.of session.host.context⟩ :=
    runSteps_of_alive fun _ => nofun
  have others :
      (runSteps (session.withRecord id record)
          [.write id argument, .closeRecord id]).Retraces
        (runSteps session [.record record argument]) := by
    by_cases ended :
        ∃ cause,
          (Argument.write argument session.host).outcome.exit =
            .error (.terminated cause)
    · rcases ended with ⟨cause, ended⟩
      exact retraces_record_of_ended fresh record argument ended
    · exact
        retraces_record_of_alive fresh record argument (not_exists.mp ended)
  rw [opened]
  exact ⟨others.events_eq, others.host_eq, others.final_eq⟩

end Retracing

end GatedLog.Session
