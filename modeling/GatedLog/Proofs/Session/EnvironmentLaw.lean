import GatedLog.Proofs.Session.Effects
import GatedLog.Proofs.Session.InitializationLaw
import GatedLog.Proofs.Session.Veil
import Mathlib.Data.List.Forall2

/-!
# The environment is read once

An initialization that takes its tags from the environment reads the variable
every time, but only the first one of a context makes anything of them.  So two
runs of the same steps that differ in the values of the variable are the same
run, as soon as the first initialization of both reads the same, or does not
read the variable at all.

The second run is compared with the first step by step.  What stands between
the two is a veil that covers nothing but the variable itself.
-/

namespace GatedLog.Session

/-- The same session with another value of the environment variable. -/
def inEnvironment
    (environment : Option (List UInt8))
    (session : Session) :
    Session :=
  session.withHost (session.host.inEnvironment environment)

namespace Step

/-- Whether a step asks for the initialization of its context. -/
def initializes : Step → Bool
  | .setUp _ => true
  | .setUpFromEnvironment _ _ _ => true
  | .configure _ => true
  | .concurrentSetUp requests => !requests.isEmpty
  | _ => false

/-- The value of the environment variable after a step. -/
def environmentAfter (environment : Option (List UInt8)) : Step → Option (List UInt8)
  | .setEnvironment value => value
  | _ => environment

/-- A step and the same step, but for the value that it gives to the variable. -/
inductive Resembles : Step → Step → Prop where
  | same (step : Step) : Resembles step step
  | sets (value other : Option (List UInt8)) :
      Resembles (.setEnvironment value) (.setEnvironment other)

end Step

/--
The value of the environment variable that the first initialization among steps
reads, if there is an initialization among them and if the first one does read.
-/
def firstRead? (environment : Option (List UInt8)) :
    List Step → Option (Option (List UInt8))
  | [] => none
  | step :: rest =>
      if step.initializes then
        if step.readsEnvironment then some environment else none
      else
        firstRead? (step.environmentAfter environment) rest

/-- Values that are the same, or that both read as if the variable were unset. -/
def ReadAlike (value other : Option (List UInt8)) : Prop :=
  value = other ∨ Tags.ofEnvironment value = none ∧ Tags.ofEnvironment other = none

theorem ReadAlike.tags_eq
    {value other : Option (List UInt8)}
    (alike : ReadAlike value other) :
    Tags.ofEnvironment value = Tags.ofEnvironment other := by
  rcases alike with rfl | ⟨unset, also_unset⟩
  · rfl
  · rw [unset, also_unset]

variable
    {session : Session}
    {step other : Step}
    {steps others : List Step}
    {environment : Option (List UInt8)}

/-! ## One step -/

/-- A step that does not heed the variable does the same under every value of it. -/
theorem perform_inEnvironment
    (heedless : step.heedsEnvironment = false)
    (environment : Option (List UInt8))
    (session : Session) :
    perform step (session.inEnvironment environment) =
      (perform step session).mapState (inEnvironment environment) := by
  refine
    @perform_commutes id (fun _ => environment) rfl step ?_ session
  intro heeds
  rw [heedless] at heeds
  cases heeds

/-- Whoever reads the variable asks for an initialization with what is read. -/
theorem request_of_reads
    (reads : step.readsEnvironment = true)
    (host : Host) :
    ∃ request,
      step.request? host = some request ∧
        request.tags = .ok host.environmentTags ∧
        ∀ environment,
          step.request? (host.inEnvironment environment) =
            some { request with tags := .ok (Tags.ofEnvironment environment) } := by
  cases step with
  | setUpFromEnvironment program logger aborter =>
      exact ⟨_, rfl, rfl, fun _ => rfl⟩
  | configure choices =>
      have source : (Configuration.ofChoices choices).tags = .environment :=
        of_decide_eq_true reads
      refine ⟨_, rfl, ?_, fun environment => ?_⟩
      · simp only [Configuration.request, source]
      · simp only [Step.request?, Configuration.request, source]
        rfl
  | _ =>
      cases reads

/-- An initialized context is past looking at the tags. -/
theorem run_of_initialized
    {host : Host}
    (initialized : host.context.initialized = true)
    (request : Initialization)
    (tags : Except TagsError (Option String)) :
    Initialization.run { request with tags := tags } host = request.run host := by
  rw [Initialization.run_of_apply_eq
      (Initialization.apply_of_initialized initialized),
    Initialization.run_of_apply_eq
      (Initialization.apply_of_initialized initialized)]
  rfl

theorem perform_reads_inEnvironment
    (reads : step.readsEnvironment = true)
    (ready :
      session.host.context.initialized = true ∨
        Tags.ofEnvironment environment = session.host.environmentTags) :
    perform step (session.inEnvironment environment) =
      (perform step session).mapState (inEnvironment environment) := by
  rcases request_of_reads reads session.host with
    ⟨request, requested, tags_eq, requested_there⟩
  have there :
      step.request? (session.inEnvironment environment).host =
        some { request with tags := .ok (Tags.ofEnvironment environment) } :=
    requested_there environment
  have same_run :
      Initialization.run
          { request with tags := .ok (Tags.ofEnvironment environment) }
          session.host =
        request.run session.host := by
    rcases ready with initialized | same_tags
    · exact run_of_initialized initialized request _
    · rw [same_tags, ← tags_eq]
  have commutes :=
    @perform_commutes id (fun _ => environment) rfl
      (.setUp { request with tags := .ok (Tags.ofEnvironment environment) })
      nofun session
  rw [perform_of_request requested, perform_of_request there]
  have here :
      silently
          (onHost
            (Initialization.run
              { request with tags := .ok (Tags.ofEnvironment environment) }))
          session =
        silently (onHost request.run) session := by
    simp only [silently, onHost, same_run]
  rw [← here]
  exact commutes

/-- What two steps that resemble each other do under two values of the variable. -/
theorem perform_of_resembles
    (resembles : step.Resembles other)
    (ready :
      step.readsEnvironment = true →
        session.host.context.initialized = true ∨
          Tags.ofEnvironment environment = session.host.environmentTags) :
    perform other (session.inEnvironment environment) =
      (perform step session).mapState
        (inEnvironment (other.environmentAfter environment)) := by
  cases resembles with
  | sets value other =>
      rfl
  | same step =>
      cases reads : step.readsEnvironment with
      | true =>
          have kept : step.environmentAfter environment = environment := by
            cases step <;> first | rfl | cases reads
          rw [kept]
          exact perform_reads_inEnvironment reads (ready reads)
      | false =>
          cases step with
          | setEnvironment value =>
              rfl
          | _ =>
              refine perform_inEnvironment ?_ environment session
              exact reads

/-- Only the steps that set the variable change it. -/
theorem environment_perform (step : Step) (session : Session) :
    (perform step session).state.host.environment =
      step.environmentAfter session.host.environment := by
  -- Under the value that the variable has anyway, nothing changes at all.
  have unchanged :=
    @perform_of_resembles session step step session.host.environment
      (.same step) fun _ => Or.inr rfl
  exact congrArg (fun outcome => outcome.state.host.environment) unchanged

/-- Whoever asks for an initialization leaves an initialized context. -/
theorem initialized_perform
    (initializes : step.initializes = true) :
    (perform step session).state.host.context.initialized = true := by
  have of_request :
      ∀ request : Initialization,
        step.request? session.host = some request →
          (perform step session).state.host.context.initialized = true := by
    intro request requested
    rw [perform_of_request requested]
    show (request.run session.host).state.context.initialized = true
    rw [Initialization.run_context]
    exact request.apply_initialized session.host.context
  cases step with
  | setUp request =>
      exact of_request _ rfl
  | setUpFromEnvironment program logger aborter =>
      exact of_request _ rfl
  | configure choices =>
      exact of_request _ rfl
  | concurrentSetUp requests =>
      cases requests with
      | nil =>
          cases initializes
      | cons request rest =>
          exact concurrentSetUp_initialized session.host request rest
  | _ =>
      cases initializes

/-! ## Two runs -/

theorem initializes_of_reads (reads : step.readsEnvironment = true) :
    step.initializes = true := by
  cases step <;> first | rfl | cases reads

theorem Step.Resembles.initializes_eq (resembles : step.Resembles other) :
    other.initializes = step.initializes := by
  cases resembles <;> rfl

theorem Step.Resembles.reads_eq (resembles : step.Resembles other) :
    other.readsEnvironment = step.readsEnvironment := by
  cases resembles <;> rfl

/--
What a run needs to know of the values that the variable has in another one:
the context is initialized already, or the first initializations read alike.
-/
def ReadsAlike
    (session : Session)
    (environment : Option (List UInt8))
    (steps others : List Step) :
    Prop :=
  session.host.context.initialized = true ∨
    ∀ value other : Option (List UInt8),
      firstRead? session.host.environment steps = some value →
        firstRead? environment others = some other → ReadAlike value other

/-- A step that reads the variable is past caring, or reads the same in both runs. -/
theorem ReadsAlike.ready
    (alike : ReadsAlike session environment (step :: steps) (other :: others))
    (resembles : step.Resembles other)
    (reads : step.readsEnvironment = true) :
    session.host.context.initialized = true ∨
      Tags.ofEnvironment environment = session.host.environmentTags := by
  rcases alike with initialized | alike
  · exact Or.inl initialized
  · have initializes := initializes_of_reads reads
    have here :
        firstRead? session.host.environment (step :: steps) =
          some session.host.environment := by
      rw [firstRead?, if_pos initializes, if_pos reads]
    have there :
        firstRead? environment (other :: others) = some environment := by
      rw [firstRead?, resembles.initializes_eq, if_pos initializes,
        resembles.reads_eq, if_pos reads]
    exact Or.inr (alike _ _ here there).tags_eq.symm

/-- After an initialization there is nothing left to agree on. -/
theorem ReadsAlike.tail
    (alike : ReadsAlike session environment (step :: steps) (other :: others))
    (resembles : step.Resembles other) :
    ReadsAlike (perform step session).state
      (other.environmentAfter environment) steps others := by
  rcases alike with initialized | alike
  · exact Or.inl (perform_settled step ⟨initialized, rfl⟩).initialized
  · cases initializes : step.initializes with
    | true =>
        exact Or.inl (initialized_perform initializes)
    | false =>
        have still : other.initializes = false :=
          resembles.initializes_eq.trans initializes
        rw [firstRead?, firstRead?, initializes, still,
          if_neg Bool.false_ne_true, if_neg Bool.false_ne_true,
          ← environment_perform] at alike
        exact Or.inr alike

/-- The same report, with another value of the variable in the end. -/
def Report.inEnvironment
    (environment : Option (List UInt8))
    (report : Report) :
    Report :=
  { report with final := report.final.inEnvironment environment }

/-- Runs that read alike give the same report, up to the value of the variable. -/
theorem runSteps_of_resembles
    (resemble : List.Forall₂ Step.Resembles steps others)
    (alike : ReadsAlike session environment steps others) :
    ∃ value,
      runSteps (session.inEnvironment environment) others =
        (runSteps session steps).inEnvironment value := by
  induction resemble generalizing session environment with
  | nil =>
      exact ⟨environment, rfl⟩
  | @cons step other steps others resembles rest induction =>
      have performed := perform_of_resembles resembles (alike.ready resembles)
      rcases induction (alike.tail resembles) with ⟨value, later⟩
      by_cases ended :
          ∃ cause, (perform step session).exit = .error (.terminated cause)
      · rcases ended with ⟨cause, ended⟩
        have ended_there :
            (perform other (session.inEnvironment environment)).exit =
              .error (.terminated cause) := by
          rw [performed]
          exact ended
        refine ⟨other.environmentAfter environment, ?_⟩
        rw [runSteps_of_ended ended, runSteps_of_ended ended_there, performed]
        rfl
      · have alive := not_exists.mp ended
        have alive_there :
            ∀ cause,
              (perform other (session.inEnvironment environment)).exit ≠
                .error (.terminated cause) := by
          rw [performed]
          exact alive
        refine ⟨value, ?_⟩
        rw [runSteps_of_alive alive, runSteps_of_alive alive_there, performed]
        simp only [Outcome.mapState, later]
        rfl

/-- What the first steps of a run read first is what the whole run reads first. -/
theorem firstRead?_of_take
    {value : Option (List UInt8)}
    (count : Nat)
    (read : firstRead? environment (steps.take count) = some value) :
    firstRead? environment steps = some value := by
  induction steps generalizing environment count with
  | nil =>
      rw [List.take_nil] at read
      exact read
  | cons step rest induction =>
      cases count with
      | zero =>
          cases read
      | succ count =>
          rw [List.take_succ_cons, firstRead?] at read
          rw [firstRead?]
          split at read
          · next initializes =>
              rw [if_pos initializes]
              exact read
          · next apart =>
              rw [if_neg apart]
              exact induction count read

theorem ReadsAlike.take
    (alike : ReadsAlike session environment steps others)
    (count : Nat) :
    ReadsAlike session environment (steps.take count) (others.take count) := by
  rcases alike with initialized | alike
  · exact Or.inl initialized
  · refine Or.inr fun value other here there => ?_
    exact
      alike value other (firstRead?_of_take count here)
        (firstRead?_of_take count there)

/-! ## The law -/

/-- Reports that differ at most in the value of the variable in the end. -/
structure Report.SameButEnvironment (first second : Report) : Prop where
  /-- Each step returns the same, with the same events and the same standing. -/
  answers_eq : first.answers = second.answers
  lost_eq : first.lost = second.lost
  termination_eq : first.termination = second.termination
  final_eq :
    ∀ value, first.final.inEnvironment value = second.final.inEnvironment value

/-- What the values of the variable have to do with two runs of the same steps. -/
structure EnvironmentLaw
    (session : Session)
    (environment : Option (List UInt8))
    (steps others : List Step) : Prop where
  /-- The two runs are the same, with what they close in the end. -/
  whole :
    (run (session.inEnvironment environment) others).SameButEnvironment
      (run session steps)
  /-- So are the events of the two runs, in order. -/
  events_eq :
    (run (session.inEnvironment environment) others).events =
      (run session steps).events
  /-- After each number of steps the two have come to the same. -/
  along :
    ∀ count : Nat,
      (runSteps (session.inEnvironment environment)
          (others.take count)).SameButEnvironment
        (runSteps session (steps.take count))
  /-- So the context is the same at every step, logger and aborter included. -/
  context_eq :
    ∀ count : Nat,
      (runSteps (session.inEnvironment environment)
          (others.take count)).final.host.context =
        (runSteps session (steps.take count)).final.host.context
  /-- No call of a thread reads the variable, under any schedule. -/
  threads :
    ∀ (calls : List (List Concurrency.Call)) (schedule : List Nat),
      (Concurrency.Machine.start (session.host.inEnvironment environment)
          calls).run schedule =
        { (Concurrency.Machine.start session.host calls).run schedule with
          host :=
            ((Concurrency.Machine.start session.host calls).run
                schedule).host.inEnvironment environment }

theorem sameButEnvironment_of_eq
    {first second : Report}
    {value : Option (List UInt8)}
    (equality : first = second.inEnvironment value) :
    first.SameButEnvironment second := by
  subst equality
  exact ⟨rfl, rfl, rfl, fun _ => rfl⟩

/--
Two runs of the same steps under different values of the variable obey the law
if the first initialization of both, should there be one, reads alike.
-/
theorem environmentLaw_of_readAlike
    (resemble : List.Forall₂ Step.Resembles steps others)
    (alike :
      session.host.context.initialized = false →
        ∀ value other : Option (List UInt8),
          firstRead? session.host.environment steps = some value →
            firstRead? environment others = some other →
              value = other ∨
                Tags.ofEnvironment value = none ∧
                  Tags.ofEnvironment other = none) :
    EnvironmentLaw session environment steps others := by
  have reads_alike : ReadsAlike session environment steps others := by
    cases initialized : session.host.context.initialized with
    | true =>
        exact Or.inl initialized
    | false =>
        exact Or.inr (alike initialized)
  have along :
      ∀ count : Nat,
        (runSteps (session.inEnvironment environment)
            (others.take count)).SameButEnvironment
          (runSteps session (steps.take count)) := by
    intro count
    rcases runSteps_of_resembles (List.forall₂_take count resemble)
        (reads_alike.take count) with ⟨value, same⟩
    exact sameButEnvironment_of_eq same
  have whole :
      (run (session.inEnvironment environment) others).SameButEnvironment
        (run session steps) := by
    rcases runSteps_of_resembles resemble reads_alike with ⟨value, same⟩
    exact
      sameButEnvironment_of_eq
        (@run_veiled_of_runSteps id (fun _ => value) rfl _ _ _ _ same)
  constructor
  · exact whole
  · rw [Report.events, Report.events, whole.answers_eq, whole.lost_eq]
  · exact along
  · intro count
    have final_eq := (along count).final_eq none
    exact congrArg (fun reached => reached.host.context) final_eq
  · intro calls schedule
    exact
      @Concurrency.Machine.run_veiled id (fun _ => environment)
        (Concurrency.Machine.start session.host calls) rfl schedule

/-- Once the variable is unset and once not UTF-8; later it holds bad tags in one run. -/
theorem environmentLaw_of_unset :
    EnvironmentLaw
      (start
        (Host.around
          (Context.new (.channel "main" .main true) (.unwind "main" none)
            "app")))
      (some [0xff])
      [.setUpFromEnvironment (some "/bin/app") (.channel "first" .main true)
          (.unwind "first" none),
        .setEnvironment (some [0x2a]),
        .configure [.logger (.channel "second" .main true)],
        .record (Record.start "src/a.rs" 1 .unspecified .info none)
          [.text "shown"]]
      [.setUpFromEnvironment (some "/bin/app") (.channel "first" .main true)
          (.unwind "first" none),
        .setEnvironment none,
        .configure [.logger (.channel "second" .main true)],
        .record (Record.start "src/a.rs" 1 .unspecified .info none)
          [.text "shown"]] := by
  apply environmentLaw_of_readAlike
  · exact
      .cons (.same _)
        (.cons (.sets _ _) (.cons (.same _) (.cons (.same _) .nil)))
  · intro _ value other read read_there
    cases read
    cases read_there
    exact Or.inr ⟨rfl, by decide⟩

end GatedLog.Session
