import GatedLog.Host
import GatedLog.Text.Lines

/-!
# Emissions

An emission hands the lines of a message to the active logger, one by one, all
under the dispatch lock.  The lock is then released.  Only after that, and only
for the highest severity, the aborter that was active under the lock is called
with the whole message.  Emission itself does not ask the threshold; closing a
record does.

A logger that panics ends the emission at that line: the lines after it are not
handed over, the aborter is not called, and the lock keeps a mark.
-/

namespace GatedLog

namespace Emission

/-- The line of a message under a header, as a context shows it. -/
def lineOf (context : Context) (header : Header) (text : String) : Line where
  toHeader := header
  tag := context.tag
  message := text

/-- The active logger takes a line. -/
def take (line : Line) : Operation Host Unit :=
  fun host =>
    ⟨.ok (),
      { host with devices := (host.context.logger.write host.devices line).1 },
      [.line host.context.logger line (host.context.logger.write host.devices line).2]⟩

/-- Hands one line to the active logger, which takes it or panics. -/
def hand (header : Header) (text : String) : Operation Host Unit :=
  fun host =>
    match host.context.logger.fault? text with
    | some panic => ⟨.error (.panicked panic), { host with lockMarked := true }, []⟩
    | none => take (lineOf host.context header text) host

/-- A line that the logger does not take leaves nothing behind but the mark. -/
theorem hand_of_fault
    {host : Host}
    {header : Header}
    {text panic : String}
    (fault : host.context.logger.fault? text = some panic) :
    hand header text host =
      ⟨.error (.panicked panic), { host with lockMarked := true }, []⟩ := by
  simp [hand, fault]

/-- A line that the logger takes is received under the header and the tag. -/
theorem hand_of_taken
    {host : Host}
    {header : Header}
    {text : String}
    (taken : host.context.logger.fault? text = none) :
    hand header text host = take (lineOf host.context header text) host := by
  simp [hand, taken]

/-- Handing over a line leaves the context alone, whatever the logger does. -/
@[simp]
theorem hand_context
    (header : Header)
    (text : String)
    (host : Host) :
    (hand header text host).state.context = host.context := by
  unfold hand
  split <;> rfl

/-- Hands lines to the active logger, in order. -/
def handAll (header : Header) : List String → Operation Host Unit
  | [] => Operation.done ()
  | text :: rest => (hand header text).andThen fun _ => handAll header rest

@[simp]
theorem handAll_context
    (header : Header)
    (lines : List String)
    (host : Host) :
    (handAll header lines host).state.context = host.context := by
  induction lines generalizing host with
  | nil => rfl
  | cons text rest ih =>
    cases exit : (hand header text host).exit with
    | ok value =>
      rw [handAll, Operation.andThen_of_ok exit]
      simp [ih]
    | error departure =>
      rw [handAll, Operation.andThen_of_error exit]
      simp

/--
The part of an emission under the dispatch lock: all lines are handed over, and
the aborter that is active then is taken along.
-/
def dispatch (header : Header) (message : String) : Operation Host Aborter :=
  Host.underLock
    ((handAll header (Text.splitLines message)).andThen fun _ host =>
      Operation.done host.context.aborter host)

/-- Marked or not, the lock is no obstacle to an emission. -/
theorem dispatch_eq (header : Header) (message : String) :
    dispatch header message =
      (handAll header (Text.splitLines message)).andThen fun _ host =>
        Operation.done host.context.aborter host :=
  Host.underLock_eq _

@[simp]
theorem dispatch_context
    (header : Header)
    (message : String)
    (host : Host) :
    (dispatch header message host).state.context = host.context := by
  cases exit : (handAll header (Text.splitLines message) host).exit with
  | ok value =>
    rw [dispatch_eq, Operation.andThen_of_ok exit]
    simp [Operation.done]
  | error departure =>
    rw [dispatch_eq, Operation.andThen_of_error exit]
    simp

end Emission

/-- Closes an announcement: it is filtered and dispatched like any record. -/
def Announcement.close (announcement : Announcement) : Operation Host Unit :=
  fun host =>
    let record := announcement.record
    if host.shouldEmit record.severity then
      ((Emission.dispatch record.toHeader record.message) host).mapValue fun _ => ()
    else
      Operation.done () host

@[simp]
theorem Announcement.close_context
    (announcement : Announcement)
    (host : Host) :
    (announcement.close host).state.context = host.context := by
  simp only [close]
  split
  · simp
  · rfl

/-- How the call of an aborter is left. -/
def Aborter.departure (aborter : Aborter) (message : String) : Departure :=
  match aborter with
  | .terminate => .terminated .aborter
  | .unwind _ _ => .aborted message

/-- Closes the record with which an aborter announces itself, if there is one. -/
def Aborter.announce : Aborter → Operation Host Unit
  | .unwind _ (some announcement) => announcement.close
  | _ => Operation.done ()

/-- Calls an aborter with a message; the call never returns. -/
def Aborter.call (aborter : Aborter) (message : String) : Operation Host Unit :=
  aborter.announce.andThen fun _ =>
    (Operation.note (.abort aborter message)).andThen fun _ =>
      Operation.depart (aborter.departure message)

@[simp]
theorem Aborter.announce_context
    (aborter : Aborter)
    (host : Host) :
    (aborter.announce host).state.context = host.context := by
  unfold announce
  split
  · simp
  · rfl

@[simp]
theorem Aborter.call_context
    (aborter : Aborter)
    (message : String)
    (host : Host) :
    (aborter.call message host).state.context = host.context := by
  cases exit : (aborter.announce host).exit with
  | ok value =>
    rw [call, Operation.andThen_of_ok exit]
    simp [Operation.andThen, Operation.note, Operation.depart]
  | error departure =>
    rw [call, Operation.andThen_of_error exit]
    simp

/-- Hands a message to the logger, line by line, and aborts if the severity asks for it. -/
def emit (header : Header) (message : String) : Operation Host Unit :=
  (Emission.dispatch header message).andThen fun aborter =>
    if header.severity.aborts then
      aborter.call message
    else
      Operation.done ()

/-- An emission leaves the context alone, however it is left itself. -/
@[simp]
theorem emit_context
    (header : Header)
    (message : String)
    (host : Host) :
    (emit header message host).state.context = host.context := by
  cases exit : (Emission.dispatch header message host).exit with
  | ok aborter =>
    rw [emit, Operation.andThen_of_ok exit]
    split
    · simp
    · simp [Operation.done]
  | error departure =>
    rw [emit, Operation.andThen_of_error exit]
    simp

/-- Closes a record: it is emitted if its severity passes the threshold at that moment. -/
def Record.close (record : Record) : Operation Host Unit :=
  fun host =>
    if host.shouldEmit record.severity then
      emit record.toHeader record.message host
    else
      Operation.done () host

/-- A record that is filtered when it is closed was never there. -/
theorem Record.close_of_filtered
    {record : Record}
    {host : Host}
    (filtered : host.shouldEmit record.severity = false) :
    record.close host = Operation.done () host := by
  simp [close, filtered]

/-- A record that is closed leaves the context alone. -/
@[simp]
theorem Record.close_context
    (record : Record)
    (host : Host) :
    (record.close host).state.context = host.context := by
  unfold close
  split
  · simp
  · rfl

/-- Closes a record in the process-wide context. -/
def Record.closeShared (record : Record) : Operation Host Unit :=
  Host.onShared record.close

/-- A record that is closed in the process-wide context leaves that at hand alone. -/
@[simp]
theorem Record.closeShared_context
    (record : Record)
    (host : Host) :
    (record.closeShared host).state.context = host.context := by
  cases shared : host.shared with
  | none => simp [closeShared, Host.onShared_of_none shared]
  | some context => exact Host.onShared_context_of_some shared record.close

end GatedLog
