import GatedLog.Bridge
import GatedLog.Concurrency.Schedule
import GatedLog.Configuration
import GatedLog.Statement

/-!
# The steps of a session

A session is a caller's history with one context.  Between its steps it keeps
records that are still open and scopes that are still in force, each under a
name of its own.  A step that is left by an abort or by a panic is over, and
the session goes on with the next one; what was open before stays open.
-/

namespace GatedLog

/-- A caller's history with one context, up to some point. -/
structure Session where
  host : Host
  /-- The open records by name, oldest first. -/
  records : List (String × Record)
  /-- The thresholds that the open scopes will restore, newest first. -/
  scopes : List (String × Severity)

namespace Session

/-- A session in which nothing is open. -/
def start (host : Host) : Session where
  host := host
  records := []
  scopes := []

/-- The same session on another process. -/
def withHost (session : Session) (host : Host) : Session :=
  { session with host := host }

/-- An operation on the process of a session. -/
def onHost
    {Value : Type}
    (operation : Operation Host Value) :
    Operation Session Value :=
  fun session => (operation session.host).mapState session.withHost

/-- What a context shows of itself after each step. -/
structure Standing where
  minimum : Severity
  tag : String
  initialized : Bool
  deriving DecidableEq, Repr

/-- What a context shows of itself. -/
def Standing.of (context : Context) : Standing where
  minimum := context.minimum
  tag := context.tag
  initialized := context.initialized

/-- One step of a session. -/
inductive Step where
  | shouldEmit (severity : Severity)
  /-- Asks for all severities that would be emitted. -/
  | emitted
  | setThreshold (severity : Severity)
  | openScope (id : String) (severity : Severity)
  | closeScope (id : String)
  | setLogger (logger : Logger)
  | setAborter (aborter : Aborter)
  /-- Formats an argument into a new record and closes the record. -/
  | record (record : Record) (argument : List Piece)
  | openRecord (id : String) (record : Record)
  | append (id : String) (fragments : List String)
  | write (id : String) (argument : List Piece)
  | inspect (id : String)
  | closeRecord (id : String)
  | emit (header : Header) (message : String)
  | setUp (request : Initialization)
  | setUpFromEnvironment (program : Option String) (logger : Logger) (aborter : Aborter)
  | configure (choices : List Configuration.Choice)
  | setEnvironment (value : Option (List UInt8))
  /-- Executes a log statement, the number of the last error being set before. -/
  | statement (statement : Statement) (errno : Int32) (argument : List Piece)
  | bridgeMessage (message : Bridge.Message) (argument : List Piece)
  | bridgeEnabled (level : Bridge.Level)
  | installBridge
  /-- Threads close records while another thread installs loggers. -/
  | concurrent (threads : List (List Record)) (loggers : List Logger)
  /-- Threads initialize the context, one request each. -/
  | concurrentSetUp (requests : List Initialization)
  | programName

/-- What a step returns. -/
inductive Result where
  | nothing
  | flag (value : Bool)
  | severity (severity : Severity)
  | severities (severities : List Severity)
  | text (text : String)
  | written (written : Written)
  | inspection (file : String) (severity : Severity) (text : String)
  | formatted (value : Bool)
  | installation (result : Except Bridge.InstallError Bridge.Level)
  | contiguous (value : Bool)
  | standings (standings : List Standing)
  /-- Something left open was closed at the end of the session. -/
  | ended (id : String)

/-- Opens a scope: installs a threshold and keeps the one before. -/
def openScope (id : String) (severity : Severity) : Operation Session Unit :=
  fun session =>
    let outcome := Host.setThreshold severity session.host
    ⟨outcome.exit.map fun _ => (),
      { session with
        host := outcome.state
        scopes := (id, session.host.context.minimum) :: session.scopes },
      outcome.events⟩

/-- Closes a scope: installs the threshold that this scope kept. -/
def closeScope (id : String) : Operation Session Unit :=
  fun session =>
    match session.scopes.lookup id with
    | none => Operation.done () session
    | some previous =>
      let outcome := Host.setThreshold previous session.host
      ⟨outcome.exit.map fun _ => (),
        { session with
          host := outcome.state
          scopes := session.scopes.eraseP fun scope => scope.1 == id },
        outcome.events⟩

/-- Keeps a new record under a name. -/
def openRecord (id : String) (record : Record) : Operation Session Unit :=
  Operation.modify fun session =>
    { session with records := session.records ++ [(id, record)] }

/-- The open records, the first one of a name replaced. -/
def replaceRecord (id : String) (record : Record) :
    List (String × Record) → List (String × Record)
  | [] => []
  | entry :: rest =>
    if entry.1 = id then
      (id, record) :: rest
    else
      entry :: replaceRecord id record rest

/-- Appends fragments to an open record and returns its text. -/
def append (id : String) (fragments : List String) : Operation Session Result :=
  Operation.modifyGet fun session =>
    match session.records.lookup id with
    | none => (.nothing, session)
    | some record =>
      let longer := record.appendAll fragments
      (.text longer.text,
        { session with records := replaceRecord id longer session.records })

/-- Formats an argument into an open record, which stays open. -/
def write (id : String) (argument : List Piece) : Operation Session Result :=
  fun session =>
    match session.records.lookup id with
    | none => Operation.done .nothing session
    | some record =>
      let writing := Argument.write argument session.host
      let longer := record.append writing.text
      (writing.outcome.mapValue Result.written).mapState fun host =>
        { session with
          host := host
          records := replaceRecord id longer session.records }

/-- What can be read off an open record. -/
def inspect (id : String) (session : Session) : Result :=
  match session.records.lookup id with
  | none => .nothing
  | some record => .inspection record.file record.severity record.text

/-- Closes an open record; whatever comes of it, the record is open no more. -/
def closeRecord (id : String) : Operation Session Unit :=
  fun session =>
    match session.records.lookup id with
    | none => Operation.done () session
    | some record =>
      (record.close session.host).mapState fun host =>
        { session with
          host := host
          records := session.records.eraseP fun entry => entry.1 == id }

/--
Threads close their records while one more thread installs loggers.  Of all
schedules the one is taken that lets the installing thread go first: it has
nothing to wait for when the others are only starting.
-/
def concurrent (threads : List (List Record)) (loggers : List Logger) :
    Operation Host Result :=
  fun host =>
    let calls := loggers.map Concurrency.Call.setLogger ::
      threads.map fun records => records.map Concurrency.Call.close
    let machine := Concurrency.Machine.start host calls
    let final := machine.run machine.sequentialSchedule
    let exit : Except Departure Result :=
      if final.ended then
        .error (.terminated .aborter)
      else
        .ok (.contiguous (Concurrency.Machine.contiguous final.log))
    ⟨exit, final.host, Concurrency.Machine.eventsOf final.sortedLog⟩

/-- Runs threads one after the other and notes how the context stands after each. -/
def standingsAfter
    (machine : Concurrency.Machine) :
    List Nat → Concurrency.Machine × List Standing
  | [] => (machine, [])
  | index :: rest =>
    let steps := (machine.threads[index]?.map machine.enoughSteps).getD 0
    let next := machine.run (List.replicate steps index)
    let later := standingsAfter next rest
    (later.1, Standing.of next.host.context :: later.2)

/-- Threads initialize the context; the result tells what each of them could see. -/
def concurrentSetUp (requests : List Initialization) : Operation Host Result :=
  fun host =>
    let machine := Concurrency.Machine.start host
      (requests.map fun request => [Concurrency.Call.setUp request])
    let (final, standings) := standingsAfter machine (List.range requests.length)
    let exit : Except Departure Result :=
      if final.ended then
        .error (.terminated .aborter)
      else
        .ok (.standings standings.eraseDups)
    ⟨exit, final.host, Concurrency.Machine.eventsOf final.sortedLog⟩

/-- An operation whose value is of no interest. -/
def silently {Value : Type} (operation : Operation Session Value) : Operation Session Result :=
  fun session => (operation session).mapValue fun _ => .nothing

/-- An answer that is read off the session. -/
def answering (function : Session → Result) : Operation Session Result :=
  fun session => Operation.done (function session) session

/-- Performs one step. -/
def perform : Step → Operation Session Result
  | .shouldEmit severity =>
    answering fun session => .flag (session.host.shouldEmit severity)
  | .emitted =>
    answering fun session => .severities (Severity.all.filter session.host.shouldEmit)
  | .setThreshold severity =>
    onHost fun host => (Host.setThreshold severity host).mapValue .severity
  | .openScope id severity => silently (openScope id severity)
  | .closeScope id => silently (closeScope id)
  | .setLogger logger => silently (onHost (Host.setLogger logger))
  | .setAborter aborter => silently (onHost (Host.setAborter aborter))
  | .record record argument =>
    onHost fun host => (record.writeAndClose argument host).mapValue .written
  | .openRecord id record => silently (openRecord id record)
  | .append id fragments => append id fragments
  | .write id argument => write id argument
  | .inspect id => answering (inspect id)
  | .closeRecord id => silently (closeRecord id)
  | .emit header message => silently (onHost (GatedLog.emit header message))
  | .setUp request => silently (onHost request.run)
  | .setUpFromEnvironment program logger aborter =>
    silently (onHost (Initialization.runFromEnvironment program logger aborter))
  | .configure choices => silently (onHost (Configuration.ofChoices choices).run)
  | .setEnvironment value => silently (onHost (Host.setEnvironment value))
  | .statement statement errno argument =>
    onHost fun host =>
      (((Host.setErrno errno).andThen fun _ => statement.run argument) host).mapValue
        .formatted
  | .bridgeMessage message argument =>
    onHost fun host => (message.run argument host).mapValue .formatted
  | .bridgeEnabled level =>
    answering fun session => .flag (Bridge.enabled level session.host)
  | .installBridge =>
    onHost fun host => (Bridge.install host).mapValue .installation
  | .concurrent threads loggers => onHost (concurrent threads loggers)
  | .concurrentSetUp requests => onHost (concurrentSetUp requests)
  | .programName => answering fun session => .text session.host.programName

/-! ## Steps that only set the context -/

theorem perform_setThreshold (severity : Severity) (session : Session) :
    perform (.setThreshold severity) session =
      Operation.done (.severity session.host.context.minimum)
        (session.withHost
          (session.host.withContext
            (session.host.context.withMinimum severity))) := by
  simp only [perform, onHost, Host.setThreshold_eq]
  rfl

theorem openScope_eq (id : String) (severity : Severity) (session : Session) :
    openScope id severity session =
      Operation.done ()
        { session with
          host :=
            session.host.withContext
              (session.host.context.withMinimum severity)
          scopes := (id, session.host.context.minimum) :: session.scopes } := by
  rw [openScope, Host.setThreshold_eq]
  rfl

theorem closeScope_of_none
    {id : String}
    {session : Session}
    (missing : session.scopes.lookup id = none) :
    closeScope id session = Operation.done () session := by
  simp only [closeScope, missing]

theorem closeScope_of_some
    {id : String}
    {session : Session}
    {previous : Severity}
    (found : session.scopes.lookup id = some previous) :
    closeScope id session =
      Operation.done ()
        { session with
          host :=
            session.host.withContext
              (session.host.context.withMinimum previous)
          scopes := session.scopes.eraseP fun scope => scope.1 == id } := by
  simp only [closeScope, found, Host.setThreshold_eq]
  rfl

theorem perform_openScope
    (id : String)
    (severity : Severity)
    (session : Session) :
    perform (.openScope id severity) session =
      Operation.done .nothing
        { session with
          host :=
            session.host.withContext
              (session.host.context.withMinimum severity)
          scopes := (id, session.host.context.minimum) :: session.scopes } := by
  rw [perform, silently, openScope_eq]
  rfl

theorem perform_setLogger (logger : Logger) (session : Session) :
    perform (.setLogger logger) session =
      Operation.done .nothing
        (session.withHost
          (session.host.withContext
            { session.host.context with logger := logger })) := by
  simp only [perform, silently, onHost, Host.setLogger_eq]
  rfl

theorem perform_setAborter (aborter : Aborter) (session : Session) :
    perform (.setAborter aborter) session =
      Operation.done .nothing
        (session.withHost
          (session.host.withContext
            { session.host.context with aborter := aborter })) := by
  simp only [perform, silently, onHost, Host.setAborter_eq]
  rfl

/-! ## Steps on open records -/

section Records

variable
    {id : String}
    {session : Session}
    {record : Record}

theorem append_of_none
    (missing : session.records.lookup id = none)
    (fragments : List String) :
    append id fragments session = Operation.done .nothing session := by
  simp only [append, Operation.modifyGet, missing]
  rfl

theorem append_of_some
    (found : session.records.lookup id = some record)
    (fragments : List String) :
    append id fragments session =
      Operation.done (.text (record.appendAll fragments).text)
        { session with
          records :=
            replaceRecord id (record.appendAll fragments) session.records } := by
  simp only [append, Operation.modifyGet, found]
  rfl

theorem write_of_none
    (missing : session.records.lookup id = none)
    (argument : List Piece) :
    write id argument session = Operation.done .nothing session := by
  simp only [write, missing]

theorem write_of_some
    (found : session.records.lookup id = some record)
    (argument : List Piece) :
    write id argument session =
      ((Argument.write argument session.host).outcome.mapValue
        Result.written).mapState fun host =>
          { session with
            host := host
            records :=
              replaceRecord id
                (record.append (Argument.write argument session.host).text)
                session.records } := by
  simp only [write, found]

theorem closeRecord_of_none
    (missing : session.records.lookup id = none) :
    closeRecord id session = Operation.done () session := by
  simp only [closeRecord, missing]

theorem closeRecord_of_some
    (found : session.records.lookup id = some record) :
    closeRecord id session =
      (record.close session.host).mapState fun host =>
        { session with
          host := host
          records := session.records.eraseP fun entry => entry.1 == id } := by
  simp only [closeRecord, found]

end Records

/-! ## Steps that are guarded -/

variable
    {session : Session}
    {errno : Int32}
    {argument : List Piece}

theorem perform_statement
    (site : Statement)
    (errno : Int32)
    (argument : List Piece)
    (session : Session) :
    perform (.statement site errno argument) session =
      ((site.run argument { session.host with errno := errno }).mapValue
        .formatted).mapState session.withHost :=
  rfl

theorem perform_statement_of_enabled
    {site : Statement}
    (enabled : session.host.sharedContext.shouldEmit site.severity = true) :
    perform (.statement site errno argument) session =
      ((((site.record errno).writeAndCloseShared argument
            { session.host with errno := errno }).mapValue
          fun _ => true).mapValue .formatted).mapState session.withHost := by
  have guarded :
      site.run argument { session.host with errno := errno } =
        ((site.record errno).writeAndCloseShared argument
          { session.host with errno := errno }).mapValue fun _ => true :=
    if_pos enabled
  rw [perform_statement, guarded]

theorem perform_statement_of_disabled
    {site : Statement}
    (disabled : session.host.sharedContext.shouldEmit site.severity = false) :
    perform (.statement site errno argument) session =
      Operation.done (.formatted false)
        (session.withHost { session.host with errno := errno }) := by
  have guarded :
      site.run argument { session.host with errno := errno } =
        Operation.done false { session.host with errno := errno } :=
    if_neg (ne_true_of_eq_false disabled)
  rw [perform_statement, guarded]
  rfl

theorem perform_bridgeMessage_of_enabled
    {message : Bridge.Message}
    (enabled : Bridge.enabled message.level session.host = true) :
    perform (.bridgeMessage message argument) session =
      (((message.record.writeAndCloseShared argument session.host).mapValue
          fun _ => true).mapValue .formatted).mapState session.withHost := by
  have guarded :
      message.run argument session.host =
        (message.record.writeAndCloseShared argument session.host).mapValue
          fun _ => true :=
    if_pos enabled
  rw [perform, onHost, guarded]

theorem perform_bridgeMessage_of_disabled
    {message : Bridge.Message}
    (disabled : Bridge.enabled message.level session.host = false) :
    perform (.bridgeMessage message argument) session =
      Operation.done (.formatted false) session := by
  have guarded :
      message.run argument session.host = Operation.done false session.host :=
    if_neg (ne_true_of_eq_false disabled)
  rw [perform, onHost, guarded]
  rfl

theorem perform_installBridge_of_bridged
    (bridged : session.host.bridged = true) :
    perform .installBridge session =
      ⟨.ok (.installation (.error .alreadyInstalled)), session, []⟩ := by
  rw [perform, onHost, Bridge.install_of_bridged bridged]
  rfl

theorem perform_installBridge_of_not_bridged
    (apart : session.host.bridged = false) :
    perform .installBridge session =
      ⟨.ok (.installation (.ok .trace)),
        session.withHost { session.host with bridged := true }, []⟩ := by
  rw [perform, onHost, Bridge.install_of_not_bridged apart]
  rfl

end Session

end GatedLog
