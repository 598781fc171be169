import GatedLog.Bridge
import GatedLog.Configuration
import GatedLog.Statement

/-!
# What no operation depends on

Two parts of a process are of no account to almost everything that is done with
it.  One is the mark that a logger leaves on the dispatch lock when it panics:
whoever takes a marked lock is warned of it, and then does what he would have
done with any other.  The other is the environment variable with the tags, which
no one reads but an initialization that is asked to.

So whatever these two are, the same is returned, the same is received, and the
process ends up in the same state, but for the two themselves.
-/

namespace GatedLog

/-! ## Operations that commute with a change of the state -/

/--
An operation does in the image of a state what it does in the state, and ends
up in the image of where it ended up.
-/
def Operation.Commutes
    {State Value : Type}
    (image : State → State)
    (operation : Operation State Value) : Prop :=
  ∀ state, operation (image state) = (operation state).mapState image

namespace Operation.Commutes

variable
    {State Value Next : Type}
    {image : State → State}

theorem done (value : Value) :
    Commutes image (Operation.done value) :=
  fun _ => rfl

theorem depart (departure : Departure) :
    Commutes image (Operation.depart departure : Operation State Value) :=
  fun _ => rfl

theorem note (event : Event) :
    Commutes image (Operation.note event) :=
  fun _ => rfl

theorem andThen
    {first : Operation State Value}
    {next : Value → Operation State Next}
    (first_commutes : Commutes image first)
    (next_commutes : ∀ value, Commutes image (next value)) :
    Commutes image (first.andThen next) := by
  intro state
  simp only [Operation.andThen, first_commutes state, Outcome.mapState]
  cases (first state).exit with
  | ok value =>
      simp only [next_commutes value (first state).state]
      rfl
  | error departure =>
      rfl

theorem mapValue
    {operation : Operation State Value}
    (commutes : Commutes image operation)
    (function : Value → Next) :
    Commutes image fun state => (operation state).mapValue function := by
  intro state
  simp only [commutes state]
  rfl

/-- What is chosen by a condition that the image does not change. -/
theorem ite
    {condition : State → Bool}
    {first second : Operation State Value}
    (same : ∀ state, condition (image state) = condition state)
    (first_commutes : Commutes image first)
    (second_commutes : Commutes image second) :
    Commutes image fun state =>
      if condition state then first state else second state := by
  intro state
  simp only [same state]
  split
  · exact first_commutes state
  · exact second_commutes state

/-- Work on the way out of an operation is done in the image, too. -/
theorem ensuring
    {work : Operation State Unit}
    (commutes : Commutes image work)
    (outcome : Outcome State Value) :
    (outcome.mapState image).ensuring work =
      (outcome.ensuring work).mapState image := by
  simp only [Outcome.ensuring, Outcome.mapState]
  split
  · rfl
  · simp only [commutes outcome.state]
    rfl

end Operation.Commutes

open Operation

/-! ## Everything that is done with a process -/

/-- The same process with another mark and another value of the environment variable. -/
def Host.veiled
    (lock : Bool → Bool)
    (value : Option (List UInt8) → Option (List UInt8))
    (host : Host) :
    Host :=
  { host with
    lockMarked := lock host.lockMarked
    environment := value host.environment }

/-- The same process after a panic with its dispatch lock held. -/
def Host.marked (host : Host) : Host :=
  { host with lockMarked := true }

/-- The same process with another value of the environment variable. -/
def Host.inEnvironment (environment : Option (List UInt8)) (host : Host) : Host :=
  { host with environment := environment }

section Veiled

variable
    {lock : Bool → Bool}
    {value : Option (List UInt8) → Option (List UInt8)}

@[simp]
theorem Host.veiled_context (host : Host) :
    (host.veiled lock value).context = host.context :=
  rfl

theorem Host.onShared_commutes
    {Value : Type}
    {operation : Operation Host Value}
    (commutes : Commutes (veiled lock value) operation) :
    Commutes (veiled lock value) (onShared operation) := by
  intro host
  cases apart : host.shared with
  | none =>
      have alone : (host.veiled lock value).shared = none := apart
      rw [onShared_of_none apart, onShared_of_none alone]
      exact commutes host
  | some shared =>
      have inside :=
        commutes { host with context := shared, shared := none }
      have apart_veiled : (host.veiled lock value).shared = some shared := apart
      simp only [onShared, apart, apart_veiled]
      simp only [veiled] at inside ⊢
      rw [inside]
      rfl

/-- A writing that ends in the image of where it ended. -/
def Writing.mapState (image : Host → Host) (writing : Writing) : Writing :=
  { writing with outcome := writing.outcome.mapState image }

theorem Argument.after_commutes
    {Value : Type}
    {image : Host → Host}
    {effect : Operation Host Value}
    {rest : Host → Writing}
    (effect_commutes : Commutes image effect)
    (rest_commutes : ∀ host : Host, rest (image host) = (rest host).mapState image)
    (host : Host) :
    after effect rest (image host) = (after effect rest host).mapState image := by
  simp only [after, effect_commutes host, Outcome.mapState]
  cases (effect host).exit with
  | ok value =>
      simp only [rest_commutes]
      rfl
  | error departure =>
      rfl

-- A panic sets the mark, in the image as well, so a mark that is set has to stay.
variable (keeps : lock true = true)

include keeps

namespace Emission

theorem hand_commutes (header : Header) (text : String) :
    Commutes (Host.veiled lock value) (hand header text) := by
  intro host
  cases fault : host.context.logger.fault? text with
  | some panic =>
      have fault_veiled :
          (host.veiled lock value).context.logger.fault? text = some panic := fault
      rw [hand_of_fault fault, hand_of_fault fault_veiled]
      simp only [Outcome.mapState, Host.veiled, keeps]
  | none =>
      have taken_veiled :
          (host.veiled lock value).context.logger.fault? text = none := fault
      rw [hand_of_taken fault, hand_of_taken taken_veiled]
      rfl

theorem handAll_commutes (header : Header) (texts : List String) :
    Commutes (Host.veiled lock value) (handAll header texts) := by
  induction texts with
  | nil =>
      exact .done ()
  | cons text rest induction =>
      exact (hand_commutes keeps header text).andThen fun _ => induction

theorem dispatch_commutes (header : Header) (message : String) :
    Commutes (Host.veiled lock value) (dispatch header message) := by
  rw [dispatch_eq]
  exact (handAll_commutes keeps header _).andThen fun _ _ => rfl

end Emission

theorem Announcement.close_commutes (announcement : Announcement) :
    Commutes (Host.veiled lock value) announcement.close :=
  Commutes.ite (fun _ => rfl)
    ((Emission.dispatch_commutes keeps _ _).mapValue _) (.done ())

theorem Aborter.announce_commutes (aborter : Aborter) :
    Commutes (Host.veiled lock value) aborter.announce := by
  unfold announce
  split
  · next announcement =>
      exact announcement.close_commutes keeps
  · exact .done ()

theorem Aborter.call_commutes (aborter : Aborter) (message : String) :
    Commutes (Host.veiled lock value) (aborter.call message) :=
  (aborter.announce_commutes keeps).andThen fun _ =>
    (Commutes.note _).andThen fun _ => .depart _

theorem emit_commutes (header : Header) (message : String) :
    Commutes (Host.veiled lock value) (emit header message) := by
  refine (Emission.dispatch_commutes keeps header message).andThen fun aborter => ?_
  split
  · exact aborter.call_commutes keeps message
  · exact .done ()

theorem Record.close_commutes (record : Record) :
    Commutes (Host.veiled lock value) record.close :=
  Commutes.ite (fun _ => rfl) (emit_commutes keeps _ _) (.done ())

theorem Record.closeShared_commutes (record : Record) :
    Commutes (Host.veiled lock value) record.closeShared :=
  Host.onShared_commutes (record.close_commutes keeps)

/-! ## Formatting -/

theorem Argument.write_veiled (argument : List Piece) (host : Host) :
    write argument (host.veiled lock value) =
      (write argument host).mapState (Host.veiled lock value) := by
  induction argument generalizing host with
  | nil =>
      rfl
  | cons piece rest induction =>
      cases piece with
      | text fragment =>
          simp only [write, induction]
          rfl
      | nested record =>
          exact after_commutes (record.close_commutes keeps) induction host
      | threshold severity =>
          rw [write_threshold, write_threshold]
          exact induction (host.withContext (host.context.withMinimum severity))
      | errno code =>
          exact after_commutes (fun _ => rfl) induction host
      | panic message =>
          rfl
      | error =>
          rfl

theorem Record.writeThen_commutes
    {close : Record → Operation Host Unit}
    (closes : ∀ record, Commutes (Host.veiled lock value) (close record))
    (record : Record)
    (argument : List Piece) :
    Commutes (Host.veiled lock value) (record.writeThen argument close) := by
  intro host
  simp only [writeThen, Argument.write_veiled keeps]
  exact (closes _).ensuring _

theorem Record.writeAndClose_commutes (record : Record) (argument : List Piece) :
    Commutes (Host.veiled lock value) (record.writeAndClose argument) :=
  writeThen_commutes keeps (close_commutes keeps) record argument

theorem Record.writeAndCloseShared_commutes
    (record : Record)
    (argument : List Piece) :
    Commutes (Host.veiled lock value) (record.writeAndCloseShared argument) :=
  writeThen_commutes keeps (closeShared_commutes keeps) record argument

theorem Statement.run_commutes (statement : Statement) (argument : List Piece) :
    Commutes (Host.veiled lock value) (statement.run argument) := by
  refine Commutes.ite (fun _ => rfl) (Commutes.mapValue ?_ _) (.done false)
  intro host
  exact (statement.record host.errno).writeAndCloseShared_commutes keeps argument host

theorem Bridge.Message.run_commutes
    (message : Bridge.Message)
    (argument : List Piece) :
    Commutes (Host.veiled lock value) (message.run argument) :=
  Commutes.ite (fun _ => rfl)
    ((message.record.writeAndCloseShared_commutes keeps argument).mapValue _)
    (.done false)

omit keeps in
theorem Bridge.install_commutes :
    Commutes (Host.veiled lock value) Bridge.install := by
  intro host
  cases bridged : host.bridged with
  | true =>
      have bridged_veiled : (host.veiled lock value).bridged = true := bridged
      rw [install_of_bridged bridged, install_of_bridged bridged_veiled]
      rfl
  | false =>
      have apart_veiled : (host.veiled lock value).bridged = false := bridged
      rw [install_of_not_bridged bridged, install_of_not_bridged apart_veiled]
      rfl

/-! ## Initialization -/

theorem Initialization.run_commutes (request : Initialization) :
    Commutes (Host.veiled lock value) request.run := by
  rw [run_eq]
  refine Commutes.andThen (fun _ => rfl) fun problem host => ?_
  cases problem with
  | none =>
      rfl
  | some problem =>
      exact (report host.reportSite problem).close_commutes keeps host

/-- An initialization that reads the environment commutes if that stays as it is. -/
theorem Initialization.runFromEnvironment_commutes
    (unchanged : value = id)
    (program : Option String)
    (logger : Logger)
    (aborter : Aborter) :
    Commutes (Host.veiled lock value)
      (runFromEnvironment program logger aborter) := by
  subst unchanged
  exact fun host =>
    run_commutes keeps ⟨program, .ok host.environmentTags, logger, aborter⟩ host

theorem Configuration.run_commutes
    (configuration : Configuration)
    (unchanged : configuration.tags = .environment → value = id) :
    Commutes (Host.veiled lock value) configuration.run := by
  unfold run
  split
  · next source =>
      exact
        Initialization.runFromEnvironment_commutes keeps (unchanged source) _ _ _
  · exact Initialization.run_commutes keeps _

end Veiled

end GatedLog
