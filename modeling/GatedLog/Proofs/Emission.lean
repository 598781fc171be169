import GatedLog.Emission

/-!
# What one emission comes to

Loggers and aborters receive lines and messages; how many bytes of a line then
fit on a device is another matter.  Up to that, everything that one emission
does is a function of the context that it is dispatched in.  The active logger
receives the lines of the message.  For the highest severity alone, and only
after the last line, the aborter of the same context announces itself if it
does so at all, and then receives the message as a whole.

All of this is for loggers that take every message.
-/

namespace GatedLog

/-- What a logger or an aborter received, whatever reached a device for it. -/
inductive Reception where
  | line (logger : Logger) (line : Line)
  | abort (aborter : Aborter) (message : String)

/-- What was received in an event. -/
def Event.reception : Event → Reception
  | .line logger received _ => .line logger received
  | .abort aborter message => .abort aborter message

/-- The aborter and the message of a reception, if it is a call of an aborter. -/
def Reception.aborted? : Reception → Option (Aborter × String)
  | .line _ _ => none
  | .abort aborter message => some (aborter, message)

theorem Event.aborted?_comp_reception :
    Reception.aborted? ∘ Event.reception = Event.aborted? := by
  funext event
  cases event <;> rfl

theorem Severity.aborts_iff {severity : Severity} :
    severity.aborts = true ↔ severity = .fatal := by
  cases severity <;> simp [aborts]

/-- A message under a header, with the context that it is dispatched in. -/
structure Emission where
  context : Context
  header : Header
  message : String

namespace Emission

/-- The lines of a message, as the active logger receives them. -/
def lines (emission : Emission) : List Reception :=
  (Text.splitLines emission.message).map fun text =>
    .line emission.context.logger
      (lineOf emission.context emission.header text)

end Emission

/-- The emission that a record becomes in a context. -/
def Record.emission (record : Record) (context : Context) : Emission :=
  ⟨context, record.toHeader, record.message⟩

/-- The emission of a record that is closed in a context, unless it is filtered. -/
def Record.emissions (record : Record) (context : Context) : List Emission :=
  if context.shouldEmit record.severity then
    [record.emission context]
  else
    []

/-- What is received when an aborter announces itself in a context. -/
def Aborter.announced (context : Context) : Aborter → List Reception
  | .unwind _ (some announcement) =>
      (announcement.record.emissions context).flatMap Emission.lines
  | _ => []

namespace Emission

/-- Everything that is received in the course of an emission, in order. -/
def receptions (emission : Emission) : List Reception :=
  emission.lines ++
    if emission.header.severity.aborts then
      emission.context.aborter.announced emission.context ++
        [.abort emission.context.aborter emission.message]
    else
      []

/-- Whether an emission ends in a call of the aborter. -/
def aborts (emission : Emission) : Bool :=
  emission.header.severity.aborts

end Emission

/-! ## Outcomes that differ from their start in devices only -/

/--
An operation that started on a process was left in a given way, with given
receptions, and of the process changed at most the content of devices.
-/
structure Outcome.Emits
    {Value : Type}
    (outcome : Outcome Host Value)
    (host : Host)
    (exit : Except Departure Value)
    (receptions : List Reception) : Prop where
  exit_eq : outcome.exit = exit
  state_eq : outcome.state = { host with devices := outcome.state.devices }
  received : outcome.events.map Event.reception = receptions

namespace Outcome.Emits

variable
    {Value Next : Type}
    {outcome : Outcome Host Value}
    {host : Host}
    {exit : Except Departure Value}
    {receptions : List Reception}

theorem context_eq (emits : outcome.Emits host exit receptions) :
    outcome.state.context = host.context := by
  rw [emits.state_eq]

theorem shared_eq (emits : outcome.Emits host exit receptions) :
    outcome.state.shared = host.shared := by
  rw [emits.state_eq]

theorem done (host : Host) (value : Value) :
    (Operation.done value host).Emits host (.ok value) [] :=
  ⟨rfl, rfl, rfl⟩

theorem andThen
    {first : Operation Host Value}
    {next : Value → Operation Host Next}
    {value : Value}
    {before after : List Reception}
    {last : Except Departure Next}
    (firstEmits : (first host).Emits host (.ok value) before)
    (nextEmits :
      (next value (first host).state).Emits (first host).state last after) :
    (first.andThen next host).Emits host last (before ++ after) := by
  rw [Operation.andThen_of_ok firstEmits.exit_eq]
  refine ⟨nextEmits.exit_eq, ?_, ?_⟩
  · rw [Outcome.state_after, nextEmits.state_eq, firstEmits.state_eq]
  · rw [Outcome.events_after, List.map_append,
      firstEmits.received, nextEmits.received]

theorem mapValue
    {Image : Type}
    (emits : outcome.Emits host exit receptions)
    (function : Value → Image) :
    (outcome.mapValue function).Emits host (exit.map function) receptions :=
  ⟨congrArg (Except.map function) emits.exit_eq, emits.state_eq, emits.received⟩

end Outcome.Emits

/-! ## Emissions through loggers that take every message -/

namespace Emission

variable {host : Host}

theorem hand_emits
    (header : Header)
    {text : String}
    (taken : host.context.logger.fault? text = none) :
    (hand header text host).Emits host (.ok ())
      [.line host.context.logger (lineOf host.context header text)] := by
  rw [hand_of_taken taken]
  exact ⟨rfl, rfl, rfl⟩

theorem handAll_emits
    (header : Header)
    (texts : List String)
    (reliable : host.context.logger.Reliable) :
    (handAll header texts host).Emits host (.ok ())
      (texts.map fun text =>
        .line host.context.logger (lineOf host.context header text)) := by
  induction texts generalizing host with
  | nil =>
      exact .done host ()
  | cons text rest induction =>
      have first := hand_emits header (reliable text)
      have second := induction (first.context_eq ▸ reliable)
      rw [first.context_eq] at second
      exact first.andThen second

theorem dispatch_emits
    (header : Header)
    (message : String)
    (reliable : host.context.logger.Reliable) :
    (dispatch header message host).Emits host (.ok host.context.aborter)
      (lines ⟨host.context, header, message⟩) := by
  have handed := handAll_emits header (Text.splitLines message) reliable
  rw [dispatch_eq, ← List.append_nil (lines _)]
  apply handed.andThen
  rw [handed.context_eq]
  exact .done _ _

end Emission

theorem Announcement.close_emits
    {host : Host}
    (announcement : Announcement)
    (reliable : host.context.logger.Reliable) :
    (announcement.close host).Emits host (.ok ())
      ((announcement.record.emissions host.context).flatMap
        Emission.lines) := by
  by_cases passes : host.context.shouldEmit announcement.record.severity = true
  · have dispatched :=
      (Emission.dispatch_emits
        announcement.record.toHeader announcement.record.message
        reliable).mapValue fun _ => ()
    rw [Record.emissions, if_pos passes, List.flatMap_singleton,
      Announcement.close, Host.shouldEmit, if_pos passes]
    exact dispatched
  · rw [Record.emissions, if_neg passes,
      Announcement.close, Host.shouldEmit, if_neg passes]
    exact .done host ()

theorem Aborter.announce_emits
    {host : Host}
    (aborter : Aborter)
    (reliable : host.context.logger.Reliable) :
    (aborter.announce host).Emits host (.ok ())
      (aborter.announced host.context) := by
  cases aborter with
  | terminate =>
      exact .done host ()
  | unwind id announcement =>
      cases announcement with
      | none =>
          exact .done host ()
      | some announcement =>
          exact announcement.close_emits reliable

/-- The call of an aborter comes after its announcement, and never returns. -/
theorem Aborter.call_emits
    {host : Host}
    (aborter : Aborter)
    (message : String)
    (reliable : host.context.logger.Reliable) :
    (aborter.call message host).Emits host
      (.error (aborter.departure message))
      (aborter.announced host.context ++ [.abort aborter message]) := by
  apply (aborter.announce_emits reliable).andThen
  exact ⟨rfl, rfl, rfl⟩

/-- How an emission is left through a logger that takes every message. -/
def Emission.exit (emission : Emission) : Except Departure Unit :=
  if emission.aborts then
    .error (emission.context.aborter.departure emission.message)
  else
    .ok ()

/-- An emission does what its context says, and leaves the context as it was. -/
theorem emit_emits
    {host : Host}
    (header : Header)
    (message : String)
    (reliable : host.context.logger.Reliable) :
    (emit header message host).Emits host
      (Emission.exit ⟨host.context, header, message⟩)
      (Emission.receptions ⟨host.context, header, message⟩) := by
  have dispatched := Emission.dispatch_emits header message reliable
  apply dispatched.andThen
  by_cases aborting : header.severity.aborts = true
  · have called :=
      host.context.aborter.call_emits message
        (dispatched.context_eq.symm ▸ reliable)
    have left :
        Emission.exit ⟨host.context, header, message⟩ =
          .error (host.context.aborter.departure message) :=
      if_pos aborting
    rw [dispatched.context_eq] at called
    rw [left, if_pos aborting, if_pos aborting]
    exact called
  · have left :
        Emission.exit ⟨host.context, header, message⟩ = .ok () :=
      if_neg aborting
    rw [left, if_neg aborting, if_neg aborting]
    exact .done _ ()

/-- A record that is closed is emitted if it passes the threshold at that moment. -/
theorem Record.close_emits
    {host : Host}
    (record : Record)
    (reliable : host.context.logger.Reliable) :
    (record.close host).Emits host
      (record.emission host.context).exit
      ((record.emissions host.context).flatMap Emission.receptions) := by
  cases passes : host.shouldEmit record.severity with
  | true =>
      have emitted :=
        emit_emits record.toHeader record.message reliable
      have single :
          record.emissions host.context = [record.emission host.context] :=
        if_pos passes
      rw [single, List.flatMap_singleton, Record.close, if_pos passes]
      exact emitted
  | false =>
      have quiet : record.severity.aborts ≠ true := by
        intro aborting
        have fatal := Severity.isFatal_of_aborts aborting
        have passing := host.context.shouldEmit_of_isFatal fatal
        exact Bool.false_ne_true (passes.symm.trans passing)
      have nothing : record.emissions host.context = [] :=
        if_neg (by simpa [Host.shouldEmit] using passes)
      have left : (record.emission host.context).exit = .ok () :=
        if_neg quiet
      rw [nothing, left, Record.close_of_filtered passes]
      exact .done host ()

end GatedLog
