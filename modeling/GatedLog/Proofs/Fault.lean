import GatedLog.Proofs.Emission
import GatedLog.Proofs.Veil

/-!
# Emissions through loggers that panic

A logger may panic instead of taking a line.  Then it has received the lines
before that one and no others, and the emission is over: there is no call of an
aborter, and the mark on the lock is all that has changed.  If the logger takes
every line, nothing tells the emission from one through a logger that takes
whatever it is given.

The lines of an emission are those of its message, and for the highest severity
also those with which the aborter announces itself: they go to the same logger,
which may panic at any of them.
-/

namespace GatedLog

namespace Logger

/-- A logger takes each of some lines. -/
def Takes (logger : Logger) (lines : List Line) : Prop :=
  ∀ line ∈ lines, logger.fault? line.message = none

/-- A logger that leaves all devices alone. -/
def Deviceless (logger : Logger) : Prop :=
  ∀ (devices : Devices) (line : Line), logger.write devices line = (devices, [])

/-- What is noted of a line that a logger without a device takes. -/
def taking (logger : Logger) (line : Line) : Event :=
  .line logger line []

/-- The same logger, with nothing left that it does not take. -/
def steadied : Logger → Logger
  | .closure id _ => .closure id fun _ => none
  | logger => logger

theorem takes_nil (logger : Logger) :
    logger.Takes [] := by
  simp [Takes]

/-- Either a logger takes all of some lines, or one of them is the first that it does not. -/
theorem takes_or_cut (logger : Logger) (lines : List Line) :
    logger.Takes lines ∨
      ∃ before line after panic,
        lines = before ++ line :: after ∧
          logger.Takes before ∧ logger.fault? line.message = some panic := by
  induction lines with
  | nil =>
      exact Or.inl logger.takes_nil
  | cons first rest induction =>
      cases fault : logger.fault? first.message with
      | some panic =>
          exact Or.inr
            ⟨[], first, rest, panic, rfl, logger.takes_nil, fault⟩
      | none =>
          rcases induction with
            takes | ⟨before, line, after, panic, rfl, takes, refused⟩
          · exact Or.inl (List.forall_mem_cons.mpr ⟨fault, takes⟩)
          · exact Or.inr
              ⟨first :: before, line, after, panic, rfl,
                List.forall_mem_cons.mpr ⟨fault, takes⟩, refused⟩

/-- Only functions panic, and functions write to no device. -/
theorem deviceless_of_fault
    {logger : Logger}
    {text panic : String}
    (fault : logger.fault? text = some panic) :
    logger.Deviceless := by
  cases logger with
  | closure id refused =>
      exact fun _ _ => rfl
  | _ =>
      cases fault

theorem Deviceless.steadied
    {logger : Logger}
    (deviceless : logger.Deviceless) :
    logger.steadied.Deviceless := by
  cases logger with
  | closure id refused =>
      exact fun _ _ => rfl
  | _ =>
      exact deviceless

theorem takes_of_steadied (logger : Logger) (lines : List Line) :
    logger.steadied.Takes lines := by
  intro line _
  cases logger <;> rfl

/-- What shows of a line is the same, whatever else the logger would refuse. -/
theorem sighting_steadied (logger : Logger) (line : Line) :
    (logger.steadied.taking line).sighting = (logger.taking line).sighting := by
  cases logger <;> rfl

end Logger

/-- The same context, with a logger that takes everything. -/
def Context.steadied (context : Context) : Context :=
  { context with logger := context.logger.steadied }

/-- The same process, with loggers that take everything. -/
def Host.steadied (host : Host) : Host :=
  { host with
    context := host.context.steadied
    shared := host.shared.map Context.steadied }

@[simp]
theorem Host.sharedContext_steadied (host : Host) :
    host.steadied.sharedContext = host.sharedContext.steadied := by
  cases apart : host.shared <;> simp [sharedContext, steadied, apart]

namespace Emission

/-! ## The lines of an emission -/

/-- The lines of a message. -/
def own (emission : Emission) : List Line :=
  (Text.splitLines emission.message).map (lineOf emission.context emission.header)

/-- The lines with which an aborter announces itself in a context. -/
def announcing (context : Context) : Aborter → List Line
  | .unwind _ (some announcement) =>
      (announcement.record.emissions context).flatMap own
  | _ => []

/-- All lines that an emission comes to, as long as the logger takes them. -/
def handed (emission : Emission) : List Line :=
  emission.own ++
    if emission.aborts then
      announcing emission.context emission.context.aborter
    else
      []

/-- What follows after all lines: the call of the aborter, for the highest severity. -/
def call (emission : Emission) : List Event :=
  if emission.aborts then
    [.abort emission.context.aborter emission.message]
  else
    []

/-- The same emission, through a logger that takes everything. -/
def steadied (emission : Emission) : Emission :=
  { emission with context := emission.context.steadied }

theorem announcing_steadied (context : Context) (aborter : Aborter) :
    announcing context.steadied aborter = announcing context aborter := by
  unfold announcing
  split
  · next announcement =>
      have same_filter :
          context.steadied.shouldEmit announcement.record.severity =
            context.shouldEmit announcement.record.severity := rfl
      simp only [Record.emissions, same_filter]
      split
      · rw [List.flatMap_singleton, List.flatMap_singleton]
        rfl
      · rfl
  · rfl

/-- A logger is handed the same lines, whatever it would not take. -/
theorem handed_steadied (emission : Emission) :
    emission.steadied.handed = emission.handed := by
  simp only [handed, steadied, announcing_steadied]
  rfl

end Emission

/-! ## Operations that hand lines to a logger -/

/--
An operation that started on a process hands lines to a logger, in order, and
is then left in a given way with further events.  Both parts are exact: the
process is the same afterwards, but for the mark after a panic.
-/
structure Outcome.Hands
    {Value : Type}
    (outcome : Outcome Host Value)
    (logger : Logger)
    (host : Host)
    (lines : List Line)
    (exit : Except Departure Value)
    (last : List Event) : Prop where
  /-- The logger takes all the lines. -/
  taken :
    logger.Deviceless →
      logger.Takes lines →
        outcome = ⟨exit, host, lines.map logger.taking ++ last⟩
  /-- The first line that the logger does not take is the end of it. -/
  cut :
    ∀ (before : List Line) (line : Line) (after : List Line) (panic : String),
      lines = before ++ line :: after →
        logger.Takes before →
          logger.fault? line.message = some panic →
            outcome =
              ⟨.error (.panicked panic), host.marked,
                before.map logger.taking⟩

namespace Outcome.Hands

variable
    {Value Next : Type}
    {logger : Logger}
    {host : Host}
    {lines more : List Line}

/-- Nothing can go wrong without lines. -/
theorem of_nil
    {outcome : Outcome Host Value}
    {exit : Except Departure Value}
    {last : List Event}
    (outcome_eq : outcome = ⟨exit, host, last⟩) :
    outcome.Hands logger host [] exit last where
  taken _ _ := outcome_eq
  cut before line after panic split := by simp at split

/-- The first line that is not taken is either among the earlier ones or after all of them. -/
theorem andThen
    {first : Operation Host Value}
    {next : Value → Operation Host Next}
    {value : Value}
    {exit : Except Departure Next}
    {last : List Event}
    (first_hands : (first host).Hands logger host lines (.ok value) [])
    (next_hands : (next value host).Hands logger host more exit last) :
    (first.andThen next host).Hands logger host (lines ++ more) exit last where
  taken deviceless takes := by
    have first_eq :=
      first_hands.taken deviceless fun line member =>
        takes line (List.mem_append_left more member)
    have next_eq :=
      next_hands.taken deviceless fun line member =>
        takes line (List.mem_append_right lines member)
    simp [Operation.andThen, first_eq, next_eq, Outcome.after]
  cut before line after panic split takes fault := by
    rcases List.append_eq_append_iff.mp split with
      ⟨between, rfl, more_eq⟩ | ⟨between, lines_eq, rest_eq⟩
    · have first_eq :=
        first_hands.taken (Logger.deviceless_of_fault fault)
          fun line member => takes line (List.mem_append_left between member)
      have next_eq :=
        next_hands.cut between line after panic more_eq
          (fun line member => takes line (List.mem_append_right lines member))
          fault
      simp [Operation.andThen, first_eq, next_eq, Outcome.after]
    · cases between with
      | nil =>
          have first_eq :=
            first_hands.taken (Logger.deviceless_of_fault fault)
              fun line member => takes line (by simpa [lines_eq] using member)
          have next_eq :=
            next_hands.cut [] line after panic (by simpa using rest_eq.symm)
              logger.takes_nil fault
          simp [Operation.andThen, first_eq, next_eq, Outcome.after, lines_eq]
      | cons earliest between =>
          rcases List.cons_eq_cons.mp rest_eq with ⟨rfl, _⟩
          have first_eq :=
            first_hands.cut before line between panic lines_eq takes fault
          simp [Operation.andThen, first_eq]

theorem mapValue
    {outcome : Outcome Host Value}
    {exit : Except Departure Value}
    {last : List Event}
    (hands : outcome.Hands logger host lines exit last)
    (function : Value → Next) :
    (outcome.mapValue function).Hands logger host lines
      (exit.map function) last where
  taken deviceless takes := by
    rw [hands.taken deviceless takes]
    rfl
  cut before line after panic split takes fault := by
    rw [hands.cut before line after panic split takes fault]
    rfl

/-- What is handed over in the process-wide context leaves that at hand alone. -/
theorem onShared
    {shared : Context}
    (apart : host.shared = some shared)
    {operation : Operation Host Value}
    {exit : Except Departure Value}
    {last : List Event}
    (hands :
      (operation { host with context := shared, shared := none }).Hands logger
        { host with context := shared, shared := none } lines exit last) :
    (Host.onShared operation host).Hands logger host lines exit last where
  taken deviceless takes := by
    simp only [Host.onShared, apart, hands.taken deviceless takes]
    simp [Outcome.mapState, ← apart]
  cut before line after panic split takes fault := by
    simp only [Host.onShared, apart,
      hands.cut before line after panic split takes fault]
    simp [Outcome.mapState, Host.marked, ← apart]

end Outcome.Hands

/-! ## One emission -/

section

variable (host : Host)

namespace Emission

theorem hand_hands (header : Header) (text : String) :
    (hand header text host).Hands host.context.logger host
      [lineOf host.context header text] (.ok ()) [] where
  taken deviceless takes := by
    have fault : host.context.logger.fault? text = none :=
      takes _ (List.mem_singleton_self _)
    rw [hand_of_taken fault, take, deviceless]
    rfl
  cut before line after panic split takes fault := by
    cases before with
    | nil =>
        rcases List.cons_eq_cons.mp split with ⟨rfl, _⟩
        exact hand_of_fault fault
    | cons earliest before =>
        simp at split

theorem handAll_hands (header : Header) (texts : List String) :
    (handAll header texts host).Hands host.context.logger host
      (texts.map (lineOf host.context header)) (.ok ()) [] := by
  induction texts with
  | nil =>
      exact .of_nil rfl
  | cons text rest induction =>
      exact (hand_hands host header text).andThen induction

theorem dispatch_hands (header : Header) (message : String) :
    (dispatch header message host).Hands host.context.logger host
      (own ⟨host.context, header, message⟩) (.ok host.context.aborter) [] := by
  have handed := handAll_hands host header (Text.splitLines message)
  rw [dispatch_eq, ← List.append_nil (own _)]
  exact handed.andThen (.of_nil rfl)

end Emission

theorem Announcement.close_hands (announcement : Announcement) :
    (announcement.close host).Hands host.context.logger host
      ((announcement.record.emissions host.context).flatMap Emission.own)
      (.ok ()) [] := by
  by_cases passes : host.context.shouldEmit announcement.record.severity = true
  · have dispatched :=
      (Emission.dispatch_hands host announcement.record.toHeader
        announcement.record.message).mapValue fun _ => ()
    rw [Record.emissions, if_pos passes, List.flatMap_singleton,
      close, Host.shouldEmit, if_pos passes]
    exact dispatched
  · rw [Record.emissions, if_neg passes, close, Host.shouldEmit, if_neg passes]
    exact .of_nil rfl

theorem Aborter.announce_hands (aborter : Aborter) :
    (aborter.announce host).Hands host.context.logger host
      (Emission.announcing host.context aborter) (.ok ()) [] := by
  cases aborter with
  | terminate =>
      exact .of_nil rfl
  | unwind id announcement =>
      cases announcement with
      | none =>
          exact .of_nil rfl
      | some announcement =>
          exact announcement.close_hands host

theorem Aborter.call_hands (aborter : Aborter) (message : String) :
    (aborter.call message host).Hands host.context.logger host
      (Emission.announcing host.context aborter)
      (.error (aborter.departure message)) [.abort aborter message] := by
  rw [← List.append_nil (Emission.announcing _ _)]
  exact (aborter.announce_hands host).andThen (.of_nil rfl)

/-- An emission hands over all its lines, and then calls the aborter if it has to. -/
theorem emit_hands (header : Header) (message : String) :
    (emit header message host).Hands host.context.logger host
      (Emission.handed ⟨host.context, header, message⟩)
      (Emission.exit ⟨host.context, header, message⟩)
      (Emission.call ⟨host.context, header, message⟩) := by
  apply (Emission.dispatch_hands host header message).andThen
  by_cases aborting : header.severity.aborts = true
  · have called := host.context.aborter.call_hands host message
    simp only [Emission.exit, Emission.call, Emission.aborts, aborting, if_true]
    exact called
  · simp only [Emission.exit, Emission.call, Emission.aborts, aborting]
    exact .of_nil rfl

theorem Record.close_hands
    {record : Record}
    (passes : host.shouldEmit record.severity = true) :
    (record.close host).Hands host.context.logger host
      (record.emission host.context).handed
      (record.emission host.context).exit
      (record.emission host.context).call := by
  rw [close, if_pos passes]
  exact emit_hands host record.toHeader record.message

theorem Record.closeShared_hands
    {record : Record}
    (passes : host.sharedContext.shouldEmit record.severity = true) :
    (record.closeShared host).Hands host.sharedContext.logger host
      (record.emission host.sharedContext).handed
      (record.emission host.sharedContext).exit
      (record.emission host.sharedContext).call := by
  cases apart : host.shared with
  | none =>
      have here : host.sharedContext = host.context := by
        simp [Host.sharedContext, apart]
      rw [here] at passes ⊢
      rw [closeShared, Host.onShared_of_none apart]
      exact close_hands host passes
  | some shared =>
      have there : host.sharedContext = shared := by
        simp [Host.sharedContext, apart]
      rw [there] at passes ⊢
      exact .onShared apart (close_hands _ passes)

end

/-! ## What a panic leaves behind, and what the lack of one does -/

/-- An outcome shows what another one shows, and ends up in its process steadied. -/
structure Outcome.Resembles
    {Value : Type}
    (steady outcome : Outcome Host Value) : Prop where
  exit_eq : steady.exit = outcome.exit
  state_eq : steady.state = outcome.state.steadied
  sighted : steady.events.map Event.sighting = outcome.events.map Event.sighting

/-- How an operation fares that carries out an emission. -/
structure Emission.Contained
    (emission : Emission)
    (operation : Operation Host Unit)
    (host : Host) : Prop where
  /--
  At the first line that the logger does not take the emission is over.  It has
  received the lines before it, the aborter is not called, and nothing of the
  process has changed but for the mark.
  -/
  cut :
    ∀ (before : List Line) (line : Line) (after : List Line) (panic : String),
      emission.handed = before ++ line :: after →
        emission.context.logger.Takes before →
          emission.context.logger.fault? line.message = some panic →
            operation host =
              ⟨.error (.panicked panic), host.marked,
                before.map emission.context.logger.taking⟩
  /--
  If it takes every line, a logger might as well be one that takes everything.
  A logger with a device is one of these to begin with (`deviceless_of_fault`).
  -/
  whole :
    emission.context.logger.Deviceless →
      emission.context.logger.Takes emission.handed →
        (operation host.steadied).Resembles (operation host) ∧
          (operation host).state = host

theorem Emission.contained_of_hands
    {emission : Emission}
    {operation : Operation Host Unit}
    {host : Host}
    (hands :
      (operation host).Hands emission.context.logger host
        emission.handed emission.exit emission.call)
    (steady_hands :
      (operation host.steadied).Hands emission.steadied.context.logger
        host.steadied emission.steadied.handed emission.steadied.exit
        emission.steadied.call) :
    emission.Contained operation host where
  cut := hands.cut
  whole deviceless takes := by
    have steady_eq :=
      steady_hands.taken deviceless.steadied (Logger.takes_of_steadied _ _)
    rw [handed_steadied] at steady_eq
    rw [hands.taken deviceless takes, steady_eq]
    refine ⟨⟨rfl, rfl, ?_⟩, rfl⟩
    have shown :
        Event.sighting ∘ emission.steadied.context.logger.taking =
          Event.sighting ∘ emission.context.logger.taking :=
      funext (Logger.sighting_steadied emission.context.logger)
    rw [List.map_append, List.map_append, List.map_map, List.map_map, shown]
    rfl

theorem emit_contained (header : Header) (message : String) (host : Host) :
    Emission.Contained ⟨host.context, header, message⟩
      (emit header message) host :=
  Emission.contained_of_hands
    (emit_hands host header message) (emit_hands host.steadied header message)

theorem Record.close_contained
    {record : Record}
    {host : Host}
    (passes : host.shouldEmit record.severity = true) :
    (record.emission host.context).Contained record.close host :=
  Emission.contained_of_hands
    (close_hands host passes) (close_hands host.steadied passes)

theorem Record.closeShared_contained
    {record : Record}
    {host : Host}
    (passes : host.sharedContext.shouldEmit record.severity = true) :
    (record.emission host.sharedContext).Contained record.closeShared host := by
  have steady_hands :=
    @closeShared_hands host.steadied record
      (by rw [Host.sharedContext_steadied]; exact passes)
  rw [Host.sharedContext_steadied] at steady_hands
  exact Emission.contained_of_hands (closeShared_hands host passes) steady_hands

/-- A record is closed where the formatting of its argument has led, if it led anywhere. -/
theorem Record.writeThen_of_returned
    {record : Record}
    {argument : List Piece}
    {host : Host}
    {written : Written}
    (returned : (Argument.write argument host).outcome.exit = .ok written)
    (close : Record → Operation Host Unit) :
    record.writeThen argument close host =
      ((close (record.append (Argument.write argument host).text)
          (Argument.write argument host).outcome.state).mapValue
        fun _ => written).after (Argument.write argument host).outcome.events := by
  have alive :
      ∀ cause,
        (Argument.write argument host).outcome.exit ≠
          .error (.terminated cause) := by
    simp [returned]
  rw [writeThen, Outcome.ensuring_of_alive alive, returned]
  cases closing :
      (close (record.append (Argument.write argument host).text)
        (Argument.write argument host).outcome.state).exit with
  | ok value =>
      simp [Outcome.mapValue, Outcome.after, Outcome.exitAfterWork, closing]
      rfl
  | error departure =>
      simp [Outcome.mapValue, Outcome.after, Outcome.exitAfterWork, closing]
      rfl

end GatedLog
