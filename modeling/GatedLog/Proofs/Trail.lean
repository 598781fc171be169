import GatedLog.Proofs.Veil

/-!
# Trails

Much of what is true of a run says how a process, what loggers and aborters
receive, and the process afterwards belong together.  Such a relation is a trail
if it can be put together from the smallest things that are ever done to a
process.  Then it holds of all that is done to one, whether loggers panic or
not and however an operation is left.
-/

namespace GatedLog

/--
A relation that the smallest changes of a process keep to, and that one change
after the other keeps to as well.  Loggers come in only as they are installed.
-/
structure Host.Trail
    (Installed : Logger → Prop)
    (Relation : Host → List Event → Host → Prop) : Prop where
  refl : ∀ host : Host, Relation host [] host
  trans :
    ∀ {first between last : Host} {before after : List Event},
      Relation first before between →
        Relation between after last →
          Relation first (before ++ after) last
  /-- The active logger takes a line. -/
  takes :
    ∀ (host : Host) (line : Line),
      Relation host
        (Emission.take line host).events (Emission.take line host).state
  /-- An aborter is called. -/
  aborts :
    ∀ (host : Host) (aborter : Aborter) (message : String),
      Relation host [.abort aborter message] host
  /-- A logger has panicked. -/
  marks : ∀ host : Host, Relation host [] host.marked
  /-- The context changes; if its logger does, it is one that is installed. -/
  configures :
    ∀ (host : Host) (context : Context),
      context.logger = host.context.logger ∨ Installed context.logger →
        Relation host [] (host.withContext context)
  errs :
    ∀ (host : Host) (code : Int32), Relation host [] { host with errno := code }
  exports :
    ∀ (host : Host) (value : Option (List UInt8)),
      Relation host [] { host with environment := value }
  /-- What is done in the process-wide context, seen from another one. -/
  shares :
    ∀ {host later : Host} {shared : Context} {events : List Event},
      host.shared = some shared →
        Relation { host with context := shared, shared := none } events later →
          Relation host events
            { later with context := host.context, shared := some later.context }

/-- A relation holds of an operation, wherever it starts and however it is left. -/
def Operation.Keeps
    {Value : Type}
    (Relation : Host → List Event → Host → Prop)
    (operation : Operation Host Value) : Prop :=
  ∀ host, Relation host (operation host).events (operation host).state

namespace Host.Trail

variable
    {Installed : Logger → Prop}
    {Relation : Host → List Event → Host → Prop}
    (trail : Host.Trail Installed Relation)

include trail

/-! ## Sequencing -/

theorem done {Value : Type} (value : Value) :
    Operation.Keeps Relation (Operation.done value) :=
  trail.refl

theorem andThen
    {Value Next : Type}
    {first : Operation Host Value}
    {next : Value → Operation Host Next}
    (first_keeps : first.Keeps Relation)
    (next_keeps : ∀ value, (next value).Keeps Relation) :
    (first.andThen next).Keeps Relation := by
  intro host
  cases exit : (first host).exit with
  | ok value =>
      rw [Operation.andThen_of_ok exit]
      exact trail.trans (first_keeps host) (next_keeps value _)
  | error departure =>
      rw [Operation.andThen_of_error exit]
      exact first_keeps host

theorem ensuring
    {Value : Type}
    {host : Host}
    {outcome : Outcome Host Value}
    {work : Operation Host Unit}
    (reached : Relation host outcome.events outcome.state)
    (work_keeps : work.Keeps Relation) :
    Relation host
      (outcome.ensuring work).events (outcome.ensuring work).state := by
  unfold Outcome.ensuring
  split
  · exact reached
  · exact trail.trans reached (work_keeps outcome.state)

theorem onShared
    {Value : Type}
    {operation : Operation Host Value}
    (keeps : operation.Keeps Relation) :
    (Host.onShared operation).Keeps Relation := by
  intro host
  cases apart : host.shared with
  | none =>
      rw [Host.onShared_of_none apart]
      exact keeps host
  | some shared =>
      simp only [Host.onShared, apart]
      exact trail.shares apart (keeps _)

/-! ## Emissions -/

theorem hand (header : Header) (text : String) :
    (Emission.hand header text).Keeps Relation := by
  intro host
  cases fault : host.context.logger.fault? text with
  | some panic =>
      rw [Emission.hand_of_fault fault]
      exact trail.marks host
  | none =>
      rw [Emission.hand_of_taken fault]
      exact trail.takes host _

theorem handAll (header : Header) (texts : List String) :
    (Emission.handAll header texts).Keeps Relation := by
  induction texts with
  | nil =>
      exact trail.done ()
  | cons text rest induction =>
      exact trail.andThen (trail.hand header text) fun _ => induction

theorem dispatch (header : Header) (message : String) :
    (Emission.dispatch header message).Keeps Relation := by
  rw [Emission.dispatch_eq]
  exact trail.andThen (trail.handAll header _) fun _ host => trail.refl host

theorem announce (aborter : Aborter) :
    aborter.announce.Keeps Relation := by
  unfold Aborter.announce
  split
  · next announcement =>
      intro host
      simp only [Announcement.close]
      split
      · exact trail.dispatch _ _ host
      · exact trail.refl host
  · exact trail.done ()

theorem call (aborter : Aborter) (message : String) :
    (aborter.call message).Keeps Relation := by
  refine trail.andThen (trail.announce aborter) fun _ => ?_
  exact trail.andThen (fun host => trail.aborts host aborter message) fun _ =>
    trail.refl

theorem emit (header : Header) (message : String) :
    (GatedLog.emit header message).Keeps Relation := by
  refine trail.andThen (trail.dispatch header message) fun aborter => ?_
  split
  · exact trail.call aborter message
  · exact trail.done ()

theorem close (record : Record) :
    record.close.Keeps Relation := by
  intro host
  unfold Record.close
  split
  · exact trail.emit _ _ host
  · exact trail.refl host

theorem closeShared (record : Record) :
    record.closeShared.Keeps Relation :=
  trail.onShared (trail.close record)

/-! ## Formatting -/

theorem threshold (severity : Severity) :
    (Host.setThreshold severity).Keeps Relation := by
  intro host
  rw [Host.setThreshold_eq]
  exact trail.configures host _ (Or.inl rfl)

theorem write (argument : List Piece) (host : Host) :
    Relation host
      (Argument.write argument host).outcome.events
      (Argument.write argument host).outcome.state := by
  have goes :
      ∀ {Value : Type} (effect : Operation Host Value) (rest : Host → Writing),
        effect.Keeps Relation →
          (∀ host,
            Relation host (rest host).outcome.events (rest host).outcome.state) →
            ∀ host,
              Relation host
                (Argument.after effect rest host).outcome.events
                (Argument.after effect rest host).outcome.state := by
    intro Value effect rest effect_keeps rest_keeps host
    simp only [Argument.after]
    split
    · exact trail.trans (effect_keeps host) (rest_keeps _)
    · exact effect_keeps host
  induction argument generalizing host with
  | nil =>
      exact trail.refl host
  | cons piece rest induction =>
      cases piece with
      | text fragment =>
          exact induction host
      | nested record =>
          exact goes _ _ (trail.close record) induction host
      | threshold severity =>
          exact goes _ _ (trail.threshold severity) induction host
      | errno code =>
          exact goes _ _ (fun host => trail.errs host code) induction host
      | panic message =>
          exact trail.refl host
      | error =>
          exact trail.refl host

theorem writeAndClose (record : Record) (argument : List Piece) :
    (record.writeAndClose argument).Keeps Relation :=
  fun host => trail.ensuring (trail.write argument host) (trail.close _)

theorem writeAndCloseShared (record : Record) (argument : List Piece) :
    (record.writeAndCloseShared argument).Keeps Relation :=
  fun host => trail.ensuring (trail.write argument host) (trail.closeShared _)

theorem statement (site : Statement) (argument : List Piece) :
    (site.run argument).Keeps Relation := by
  intro host
  unfold Statement.run
  split
  · exact trail.writeAndCloseShared _ argument host
  · exact trail.refl host

theorem bridgeMessage (message : Bridge.Message) (argument : List Piece) :
    (message.run argument).Keeps Relation := by
  intro host
  unfold Bridge.Message.run
  split
  · exact trail.writeAndCloseShared _ argument host
  · exact trail.refl host

/-! ## Initialization -/

theorem setUp
    {request : Initialization}
    (installed : Installed request.logger) :
    request.run.Keeps Relation := by
  rw [Initialization.run_eq]
  refine trail.andThen (fun host => ?_) fun problem host => ?_
  · refine trail.configures host _ (Or.inr ?_)
    simp only [Initialization.apply]
    split
    · exact installed
    · simp only [Initialization.stash]
      split <;> exact installed
  · cases problem with
    | none =>
        exact trail.refl host
    | some problem =>
        exact trail.close _ host

theorem configure
    {configuration : Configuration}
    (installed : Installed configuration.logger) :
    configuration.run.Keeps Relation := by
  unfold Configuration.run
  split
  · intro host
    exact
      @setUp _ _ trail
        ⟨configuration.program, .ok host.environmentTags,
          configuration.logger, configuration.aborter⟩
        installed host
  · exact trail.setUp installed

end Host.Trail

/-- Nothing that is done to a process moves the place from which bad tags are reported. -/
theorem Host.reportSite_trail :
    Host.Trail (fun _ => True) fun before _ after =>
      after.reportSite = before.reportSite where
  refl _ := rfl
  trans first second := second.trans first
  takes _ _ := rfl
  aborts _ _ _ := rfl
  marks _ := rfl
  configures _ _ _ := rfl
  errs _ _ := rfl
  exports _ _ := rfl
  shares _ inside := inside

end GatedLog
