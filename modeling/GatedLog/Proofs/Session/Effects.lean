import GatedLog.Proofs.Initialization
import GatedLog.Proofs.Session.Run
import GatedLog.Proofs.Writing

/-!
# What one step of a session comes to

Every step of a single thread is accounted for twice: by the context that it
leaves behind, which no emission has a part in, and by the emissions that it
brings about, each with the context that it is dispatched in.  What loggers and
aborters receive during the step are exactly the receptions of these emissions.

The account holds for loggers that take every message.  For the receptions the
aborters have to unwind, because after the end of the process nothing more is
closed.
-/

namespace GatedLog

/-- The initialization that a configuration asks of a process. -/
def Configuration.request (configuration : Configuration) (host : Host) :
    Initialization where
  program := configuration.program
  tags :=
    match configuration.tags with
    | .environment => .ok host.environmentTags
    | .given tags => .ok tags
  logger := configuration.logger
  aborter := configuration.aborter

theorem Configuration.run_eq_request
    (configuration : Configuration)
    (host : Host) :
    configuration.run host = (configuration.request host).run host := by
  cases source : configuration.tags with
  | environment =>
      simp only [run, request, source, Initialization.runFromEnvironment]
  | given tags =>
      simp only [run, request, source]

namespace Session

namespace Step

/-- Whether several threads take part in a step. -/
def isConcurrent : Step → Bool
  | .concurrent _ _ => true
  | .concurrentSetUp _ => true
  | _ => false

/-- The loggers that a step may install. -/
def loggers : Step → List Logger
  | .setLogger logger => [logger]
  | .setUp request => [request.logger]
  | .setUpFromEnvironment _ logger _ => [logger]
  | .configure choices => [(Configuration.ofChoices choices).logger]
  | .concurrent _ loggers => loggers
  | .concurrentSetUp requests => requests.map Initialization.logger
  | _ => []

/-- The aborters that a step may install. -/
def aborters : Step → List Aborter
  | .setAborter aborter => [aborter]
  | .setUp request => [request.aborter]
  | .setUpFromEnvironment _ _ aborter => [aborter]
  | .configure choices => [(Configuration.ofChoices choices).aborter]
  | .concurrentSetUp requests => requests.map Initialization.aborter
  | _ => []

/-- The initialization that a step asks of a process, if it is one. -/
def request? (host : Host) : Step → Option Initialization
  | .setUp request => some request
  | .setUpFromEnvironment program logger aborter =>
      some ⟨program, .ok host.environmentTags, logger, aborter⟩
  | .configure choices => some ((Configuration.ofChoices choices).request host)
  | _ => none

/-- The argument that a step formats in a session, if it comes to that. -/
def argument (session : Session) : Step → List Piece
  | .record _ argument => argument
  | .write id argument =>
      match session.records.lookup id with
      | none => []
      | some _ => argument
  | .statement site _ argument =>
      if session.host.sharedContext.shouldEmit site.severity then
        argument
      else
        []
  | .bridgeMessage message argument =>
      if Bridge.enabled message.level session.host then argument else []
  | _ => []

/-- The context that a step leaves behind. -/
def contextAfter (session : Session) (step : Step) : Context :=
  let context := session.host.context
  match step with
  | .setThreshold severity => context.withMinimum severity
  | .openScope _ severity => context.withMinimum severity
  | .closeScope id =>
      match session.scopes.lookup id with
      | none => context
      | some previous => context.withMinimum previous
  | .setLogger logger => { context with logger := logger }
  | .setAborter aborter => { context with aborter := aborter }
  | _ =>
      match step.request? session.host with
      | some request => request.contextAfter context
      | none => Argument.contextAfter context (step.argument session)

/-- The emissions that a step of a single thread brings about, in order. -/
def emissions (session : Session) (step : Step) : List Emission :=
  let host := session.host
  match step with
  | .record draft argument => draft.emissionsWith argument host.context
  | .write _ _ => Argument.emissions host.context (step.argument session)
  | .closeRecord id =>
      match session.records.lookup id with
      | none => []
      | some draft => draft.emissions host.context
  | .emit header message => [⟨host.context, header, message⟩]
  | .statement site errno argument =>
      if host.sharedContext.shouldEmit site.severity then
        (site.record errno).sharedEmissionsWith argument host
      else
        []
  | .bridgeMessage message argument =>
      if Bridge.enabled message.level host then
        message.record.sharedEmissionsWith argument host
      else
        []
  | _ =>
      match step.request? host with
      | some request => request.emissions host
      | none => []

end Step

/-- The account of one step. -/
structure Accounts (session : Session) (step : Step) : Prop where
  context_eq :
    (perform step session).state.host.context = step.contextAfter session
  shared_eq : (perform step session).state.host.shared = session.host.shared
  received :
    session.host.Unwinds →
      (perform step session).events.map Event.reception =
        (step.emissions session).flatMap Emission.receptions

variable
    {session : Session}
    {Value : Type}

/-- A step that asks for an initialization does nothing else. -/
theorem perform_of_request
    {step : Step}
    {request : Initialization}
    (requested : step.request? session.host = some request) :
    perform step session = silently (onHost request.run) session := by
  cases step with
  | setUp asked =>
      cases requested
      rfl
  | setUpFromEnvironment program logger aborter =>
      cases requested
      rfl
  | configure choices =>
      cases requested
      simp only [perform, silently, onHost, Configuration.run_eq_request]
  | _ =>
      cases requested

/-- The account of an operation that emits without touching a context. -/
theorem accounts_of_emits
    {step : Step}
    {outcome : Outcome Host Value}
    {exit : Except Departure Value}
    (emits :
      outcome.Emits session.host exit
        ((step.emissions session).flatMap Emission.receptions))
    (host_eq : (perform step session).state.host = outcome.state)
    (events_eq : (perform step session).events = outcome.events)
    (unmoved : step.contextAfter session = session.host.context) :
    Accounts session step where
  context_eq := by
    rw [host_eq, emits.context_eq, unmoved]
  shared_eq := by
    rw [host_eq, emits.shared_eq]
  received _ := by
    rw [events_eq, emits.received]

/-- The account of a step that asks for an initialization. -/
theorem accounts_of_request
    {step : Step}
    (request : Initialization)
    (reliable : request.logger.Reliable)
    (host_eq :
      (perform step session).state.host = (request.run session.host).state)
    (events_eq :
      (perform step session).events = (request.run session.host).events)
    (moved :
      step.contextAfter session = request.contextAfter session.host.context)
    (emits : step.emissions session = request.emissions session.host) :
    Accounts session step where
  context_eq := by
    rw [host_eq, (Initialization.run_emits reliable).context_eq, moved]
    rfl
  shared_eq := by
    rw [host_eq, (Initialization.run_emits reliable).shared_eq]
    rfl
  received _ := by
    rw [events_eq, (Initialization.run_emits reliable).received, emits]

/-- The account of a step that emits nothing. -/
theorem accounts_of_silent
    {step : Step}
    {result : Result}
    {later : Session}
    (performed : perform step session = Operation.done result later)
    (context_eq : later.host.context = step.contextAfter session)
    (shared_eq : later.host.shared = session.host.shared)
    (silent : step.emissions session = []) :
    Accounts session step where
  context_eq := by
    rw [performed]
    exact context_eq
  shared_eq := by
    rw [performed]
    exact shared_eq
  received _ := by
    rw [performed, silent]
    rfl

theorem accounts_closeScope (id : String) :
    Accounts session (.closeScope id) := by
  cases found : session.scopes.lookup id with
  | none =>
      apply accounts_of_silent
      · rw [perform, silently, closeScope_of_none found]
        rfl
      · simp only [Step.contextAfter, found]
        rfl
      · rfl
      · rfl
  | some previous =>
      apply accounts_of_silent
      · rw [perform, silently, closeScope_of_some found]
        rfl
      · simp only [Step.contextAfter, found]
        rfl
      · rfl
      · rfl

theorem accounts_append (id : String) (fragments : List String) :
    Accounts session (.append id fragments) := by
  cases found : session.records.lookup id with
  | none =>
      exact accounts_of_silent (append_of_none found fragments) rfl rfl rfl
  | some record =>
      exact accounts_of_silent (append_of_some found fragments) rfl rfl rfl

theorem accounts_write
    (id : String)
    (argument : List Piece)
    (reliable : session.host.Reliable) :
    Accounts session (.write id argument) := by
  cases found : session.records.lookup id with
  | none =>
      have nothing : Step.argument session (.write id argument) = [] := by
        simp only [Step.argument, found]
      apply accounts_of_silent
      · exact write_of_none found argument
      · simp only [Step.contextAfter, Step.request?, nothing]
        rfl
      · rfl
      · simp only [Step.emissions, nothing]
        rfl
  | some record =>
      have performs :=
        Argument.write_performs argument reliable.here
      have formatted :
          Step.argument session (.write id argument) = argument := by
        simp only [Step.argument, found]
      refine ⟨?_, ?_, fun _ => ?_⟩
      · rw [perform, write_of_some found]
        simp only [Step.contextAfter, Step.request?, formatted]
        exact performs.context_eq
      · rw [perform, write_of_some found]
        exact performs.shared_eq
      · rw [perform, write_of_some found]
        simp only [Step.emissions, formatted]
        exact performs.received

theorem accounts_record
    (record : Record)
    (argument : List Piece)
    (reliable : session.host.Reliable) :
    Accounts session (.record record argument) where
  context_eq := (record.writeAndClose_contexts argument reliable).1
  shared_eq := (record.writeAndClose_contexts argument reliable).2
  received := record.writeAndClose_received argument reliable

theorem accounts_closeRecord
    (id : String)
    (reliable : session.host.Reliable) :
    Accounts session (.closeRecord id) := by
  cases found : session.records.lookup id with
  | none =>
      apply accounts_of_silent
      · rw [perform, silently, closeRecord_of_none found]
        rfl
      · rfl
      · rfl
      · simp only [Step.emissions, found]
  | some record =>
      have closed := record.close_emits reliable.here
      have emissions :
          Step.emissions session (.closeRecord id) =
            record.emissions session.host.context := by
        simp only [Step.emissions, found]
      rw [← emissions] at closed
      apply accounts_of_emits closed
      · rw [perform, silently, closeRecord_of_some found]
        rfl
      · rw [perform, silently, closeRecord_of_some found]
        rfl
      · rfl

theorem accounts_emit
    (header : Header)
    (message : String)
    (reliable : session.host.Reliable) :
    Accounts session (.emit header message) := by
  have emitted := emit_emits header message reliable.here
  rw [← List.flatMap_singleton Emission.receptions] at emitted
  exact accounts_of_emits emitted rfl rfl rfl

/-- The account of a record that a step formats an argument into process-wide. -/
theorem accounts_of_shared
    {step : Step}
    {record : Record}
    {argument : List Piece}
    {host : Host}
    (reliable : host.Reliable)
    (here_eq : host.context = session.host.context)
    (apart_eq : host.shared = session.host.shared)
    (host_eq :
      (perform step session).state.host =
        (record.writeAndCloseShared argument host).state)
    (events_eq :
      (perform step session).events =
        (record.writeAndCloseShared argument host).events)
    (moved :
      step.contextAfter session =
        Argument.contextAfter session.host.context argument)
    (emits :
      step.emissions session =
        record.sharedEmissionsWith argument session.host) :
    Accounts session step where
  context_eq := by
    have contexts := record.writeAndCloseShared_contexts argument reliable
    rw [host_eq, contexts.1, moved, here_eq]
  shared_eq := by
    have contexts := record.writeAndCloseShared_contexts argument reliable
    rw [host_eq, contexts.2, apart_eq]
  received unwinds := by
    have leaves : host.Unwinds := by
      refine ⟨here_eq ▸ unwinds.here, ?_⟩
      simpa only [Host.sharedContext, here_eq, apart_eq] using unwinds.shared
    have same :
        record.sharedEmissionsWith argument host =
          record.sharedEmissionsWith argument session.host := by
      simp only [Record.sharedEmissionsWith, Host.sharedContext,
        Host.withContext, here_eq, apart_eq]
    rw [events_eq, emits, ← same]
    exact record.writeAndCloseShared_received argument reliable leaves

theorem accounts_statement
    (statement : Statement)
    (errno : Int32)
    (argument : List Piece)
    (reliable : session.host.Reliable) :
    Accounts session (.statement statement errno argument) := by
  have sameReliable : ({ session.host with errno := errno } : Host).Reliable :=
    ⟨reliable.here, reliable.shared⟩
  cases enabled : session.host.sharedContext.shouldEmit statement.severity with
  | true =>
      have performed :=
        @perform_statement_of_enabled session errno argument statement enabled
      apply accounts_of_shared sameReliable rfl rfl
      · rw [performed]
        rfl
      · rw [performed]
        rfl
      · simp only [Step.contextAfter, Step.request?, Step.argument, enabled,
          if_true]
      · exact if_pos enabled
  | false =>
      apply accounts_of_silent (perform_statement_of_disabled enabled)
      · simp [Step.contextAfter, Step.request?, Step.argument, enabled]
        rfl
      · rfl
      · simp [Step.emissions, enabled]

theorem accounts_bridgeMessage
    (message : Bridge.Message)
    (argument : List Piece)
    (reliable : session.host.Reliable) :
    Accounts session (.bridgeMessage message argument) := by
  cases enabled : Bridge.enabled message.level session.host with
  | true =>
      have performed :=
        @perform_bridgeMessage_of_enabled session argument message enabled
      apply accounts_of_shared reliable rfl rfl
      · rw [performed]
        rfl
      · rw [performed]
        rfl
      · simp only [Step.contextAfter, Step.request?, Step.argument, enabled,
          if_true]
      · exact if_pos enabled
  | false =>
      apply accounts_of_silent (perform_bridgeMessage_of_disabled enabled)
      · simp [Step.contextAfter, Step.request?, Step.argument, enabled]
        rfl
      · rfl
      · simp [Step.emissions, enabled]

theorem accounts_installBridge :
    Accounts session .installBridge := by
  cases bridged : session.host.bridged with
  | true =>
      exact accounts_of_silent (perform_installBridge_of_bridged bridged)
        rfl rfl rfl
  | false =>
      exact accounts_of_silent (perform_installBridge_of_not_bridged bridged)
        rfl rfl rfl

/-- Every step of a single thread is accounted for. -/
theorem perform_accounts
    (step : Step)
    (alone : step.isConcurrent = false)
    (reliable : session.host.Reliable)
    (installs : ∀ logger ∈ step.loggers, logger.Reliable) :
    Accounts session step := by
  cases step with
  | setThreshold severity =>
      exact accounts_of_silent (perform_setThreshold severity _) rfl rfl rfl
  | openScope id severity =>
      exact accounts_of_silent (perform_openScope id severity _) rfl rfl rfl
  | closeScope id =>
      exact accounts_closeScope id
  | setLogger logger =>
      exact accounts_of_silent (perform_setLogger logger _) rfl rfl rfl
  | setAborter aborter =>
      exact accounts_of_silent (perform_setAborter aborter _) rfl rfl rfl
  | record record argument =>
      exact accounts_record record argument reliable
  | append id fragments =>
      exact accounts_append id fragments
  | write id argument =>
      exact accounts_write id argument reliable
  | closeRecord id =>
      exact accounts_closeRecord id reliable
  | emit header message =>
      exact accounts_emit header message reliable
  | setUp request =>
      exact accounts_of_request request
        (installs request.logger List.mem_cons_self) rfl rfl rfl rfl
  | setUpFromEnvironment program logger aborter =>
      exact accounts_of_request
        ⟨program, .ok session.host.environmentTags, logger, aborter⟩
        (installs logger List.mem_cons_self) rfl rfl rfl rfl
  | configure choices =>
      have asked :=
        (Configuration.ofChoices choices).run_eq_request session.host
      apply accounts_of_request
        ((Configuration.ofChoices choices).request session.host)
      · exact installs _ List.mem_cons_self
      · exact congrArg Outcome.state asked
      · exact congrArg Outcome.events asked
      · rfl
      · rfl
  | statement statement errno argument =>
      exact accounts_statement statement errno argument reliable
  | bridgeMessage message argument =>
      exact accounts_bridgeMessage message argument reliable
  | installBridge =>
      exact accounts_installBridge
  | concurrent threads loggers =>
      cases alone
  | concurrentSetUp requests =>
      cases alone
  | _ =>
      exact accounts_of_silent rfl rfl rfl rfl

/-! ## Reliability is preserved -/

namespace Step

theorem contextAfter_logger (session : Session) (step : Step) :
    (step.contextAfter session).logger = session.host.context.logger ∨
      (step.contextAfter session).logger ∈ step.loggers := by
  cases step with
  | closeScope id =>
      left
      simp only [contextAfter]
      split <;> rfl
  | setLogger logger =>
      exact Or.inr List.mem_cons_self
  | setUp request =>
      right
      exact request.contextAfter_logger _ ▸ List.mem_cons_self
  | setUpFromEnvironment program logger aborter =>
      right
      exact Initialization.contextAfter_logger _ _ ▸ List.mem_cons_self
  | configure choices =>
      right
      exact Initialization.contextAfter_logger _ _ ▸ List.mem_cons_self
  | setThreshold severity =>
      exact Or.inl rfl
  | openScope id severity =>
      exact Or.inl rfl
  | setAborter aborter =>
      exact Or.inl rfl
  | _ =>
      exact Or.inl (Argument.contextAfter_logger _ _)

theorem contextAfter_aborter (session : Session) (step : Step) :
    (step.contextAfter session).aborter = session.host.context.aborter ∨
      (step.contextAfter session).aborter ∈ step.aborters := by
  cases step with
  | closeScope id =>
      left
      simp only [contextAfter]
      split <;> rfl
  | setAborter aborter =>
      exact Or.inr List.mem_cons_self
  | setUp request =>
      right
      exact request.contextAfter_aborter _ ▸ List.mem_cons_self
  | setUpFromEnvironment program logger aborter =>
      right
      exact Initialization.contextAfter_aborter _ _ ▸ List.mem_cons_self
  | configure choices =>
      right
      exact Initialization.contextAfter_aborter _ _ ▸ List.mem_cons_self
  | setThreshold severity =>
      exact Or.inl rfl
  | openScope id severity =>
      exact Or.inl rfl
  | setLogger logger =>
      exact Or.inl rfl
  | _ =>
      exact Or.inl (Argument.contextAfter_aborter _ _)

end Step

/-- A reliable process stays reliable if a step installs reliable loggers only. -/
theorem Accounts.reliable
    {step : Step}
    (accounts : Accounts session step)
    (reliable : session.host.Reliable)
    (installs : ∀ logger ∈ step.loggers, logger.Reliable) :
    (perform step session).state.host.Reliable := by
  apply reliable.of_here accounts.shared_eq
  rw [accounts.context_eq]
  rcases step.contextAfter_logger session with kept | installed
  · exact kept.symm ▸ reliable.here
  · exact installs _ installed

/-- What all aborters have in common, those that a step installs included, stays so. -/
theorem Accounts.aborters
    {step : Step}
    {Property : Aborter → Prop}
    (accounts : Accounts session step)
    (before : session.host.Everywhere fun context => Property context.aborter)
    (installs : ∀ aborter ∈ step.aborters, Property aborter) :
    (perform step session).state.host.Everywhere
      fun context => Property context.aborter := by
  apply before.of_here accounts.shared_eq
  rw [accounts.context_eq]
  rcases step.contextAfter_aborter session with kept | installed
  · exact kept.symm ▸ before.here
  · exact installs _ installed

theorem Accounts.unwinds
    {step : Step}
    (accounts : Accounts session step)
    (unwinds : session.host.Unwinds)
    (installs : ∀ aborter ∈ step.aborters, aborter.Unwinds) :
    (perform step session).state.host.Unwinds :=
  accounts.aborters unwinds installs

/-- Steps of one thread that install reliable loggers only. -/
structure ReliableSteps (steps : List Step) : Prop where
  alone : ∀ step ∈ steps, step.isConcurrent = false
  loggers : ∀ step ∈ steps, ∀ logger ∈ step.loggers, logger.Reliable

theorem ReliableSteps.of_subset
    {steps others : List Step}
    (reliable : ReliableSteps steps)
    (subset : others ⊆ steps) :
    ReliableSteps others where
  alone _ member := reliable.alone _ (subset member)
  loggers _ member := reliable.loggers _ (subset member)

/-- On a reliable process, each of the steps is accounted for. -/
theorem ReliableSteps.accounts
    {steps : List Step}
    {step : Step}
    (steps_reliable : ReliableSteps steps)
    (member : step ∈ steps)
    (reliable : session.host.Reliable) :
    Accounts session step :=
  perform_accounts step
    (steps_reliable.alone step member)
    reliable
    (steps_reliable.loggers step member)

/-- A reliable process stays reliable all along the steps. -/
theorem ReliableSteps.runSteps
    {steps : List Step}
    (steps_reliable : ReliableSteps steps)
    (reliable : session.host.Reliable) :
    (runSteps session steps).final.host.Reliable := by
  refine @runSteps_invariant session
    (fun reached => reached.host.Reliable) steps reliable ?_
  intro reached step member reachedReliable
  exact
    (steps_reliable.accounts member reachedReliable).reliable
      reachedReliable (steps_reliable.loggers step member)

end Session

end GatedLog
