import GatedLog.Proofs.Concurrency.Owed
import GatedLog.Proofs.Concurrency.Trail

/-!
# What is owed is received, under every schedule

At every moment each call that was begun has come to some point with what it
owes: a turn of its own thread takes it one step further, and a turn of another
thread takes nothing from it.  In particular the pair that an emission found
under the lock stays the one it goes to, whatever is installed after it.
-/

namespace GatedLog.Concurrency

/-- The loggers that these calls leave in a context take every message. -/
structure ReliableLoggers (origin : Context) (calls : List (List Call)) : Prop where
  original : origin.logger.Reliable
  installed :
    ∀ own ∈ calls, ∀ request, .setUp request ∈ own → request.logger.Reliable

namespace Machine

/-- What one call owes, and how far it has come with it. -/
structure Fulfils
    (reliable : Prop)
    (host : Host)
    (history : List Admission)
    (machine : Machine)
    (index position : Nat)
    (call : Call)
    (activity : Activity)
    (owed : Option Delivery) : Prop where
  owes : Owes host history index position call owed
  received :
    Received (Installed host.context history) (reliable ∧ activity = .idle) owed
      (abortingOf machine.log index position)
  headway :
    machine.ended = false →
      Headway reliable (Installed host.context history) machine.host.context owed
        activity (abortingOf machine.log index position)

/-- Every call that was begun has come to some point with what it owes. -/
def Fulfilled
    (reliable : Prop)
    (host : Host)
    (calls : List (List Call))
    (history : List Admission)
    (machine : Machine) : Prop :=
  ∀ (index : Nat) (thread : Thread) (own : List Call) (position : Nat) (call : Call),
    machine.threads[index]? = some thread →
      calls[index]? = some own →
        own[position]? = some call →
          position < thread.begun →
            ∃ owed,
              Fulfils reliable host history machine index position call
                (thread.activityAt position) owed

variable
    {reliable kept : Prop}
    {host : Host}
    {history later extended : List Admission}
    {calls : List (List Call)}
    {machine after : Machine}
    {index other position : Nat}
    {thread next : Thread}
    {activity : Activity}
    {happenings : List Happening}
    {owed : Option Delivery}
    {call : Call}

/-! ## The part of the log that belongs to one call -/

theorem log_logged_nil (machine : Machine) (index : Nat) (thread : Thread) :
    (machine.logged index thread []).log = machine.log :=
  List.append_nil machine.log

theorem abortingOf_logged (current : position + 1 = thread.begun) :
    abortingOf (machine.logged index thread happenings).log index position =
      abortingOf machine.log index position ++
        happenings.filterMap Happening.aborting? := by
  have position_eq : thread.begun - 1 = position := by omega
  simp only [abortingOf, logged, List.filter_append, List.filterMap_append,
    List.filter_map, List.filterMap_map, Function.comp_def, position_eq,
    decide_true, Bool.and_self]
  rw [List.filter_eq_self.mpr fun _ _ => rfl]

theorem abortingOf_logged_elsewhere
    (different : index = other → thread.begun - 1 ≠ position) :
    abortingOf (machine.logged index thread happenings).log other position =
      abortingOf machine.log other position := by
  simp only [abortingOf, logged, List.filter_append, List.filterMap_append,
    List.append_right_eq_self, List.filter_map, Function.comp_def]
  rw [List.filter_eq_nil_iff.mpr]
  · rfl
  · intro happening _ ours
    simp only [Bool.and_eq_true, decide_eq_true_eq] at ours
    exact different ours.1 ours.2

/-- Of a call that was not begun there is nothing in the log. -/
theorem Orderly.abortingOf_eq_nil
    (orderly : Orderly calls machine)
    (later :
      ∀ thread, machine.threads[index]? = some thread → thread.begun ≤ position) :
    abortingOf machine.log index position = [] := by
  have none_of_it :
      (machine.log.filter fun entry =>
        entry.thread = index && entry.call = position) = [] := by
    rw [List.filter_eq_nil_iff]
    intro entry entry_member ours
    rcases orderly.bounded entry entry_member with ⟨owner, owner_member, less⟩
    simp only [Bool.and_eq_true, decide_eq_true_eq] at ours
    rw [ours.1] at owner_member
    have too_late := later owner owner_member
    omega
  rw [abortingOf, none_of_it]
  rfl

/-! ## Calls of which it is not the turn -/

/-- A turn that is taken in the course of a schedule. -/
structure Taken
    (host : Host)
    (calls : List (List Call))
    (history : List Admission)
    (machine : Machine)
    (index : Nat)
    (thread : Thread)
    (after : Machine) : Prop where
  reached : Reached (start host calls) history machine
  running : machine.ended = false
  member : machine.threads[index]? = some thread
  turn : Turn machine index thread after

theorem Fulfils.of_headway
    (owes : Owes host history index position call owed)
    (headway :
      Headway reliable (Installed host.context history) machine.host.context owed
        activity (abortingOf machine.log index position)) :
    Fulfils reliable host history machine index position call activity owed :=
  ⟨owes, headway.received (installed_origin host.context history), fun _ => headway⟩

/-- A call is as far as it was while others go on, also in installing other pairs. -/
theorem Fulfils.elsewhere
    (fulfils :
      Fulfils reliable host history machine index position call activity owed)
    (running : machine.ended = false)
    (later : List Admission)
    (same_log :
      abortingOf after.log index position = abortingOf machine.log index position)
    (same_context :
      ∀ delivery remaining, activity = .dispatching delivery remaining →
        after.host.context = machine.host.context) :
    Fulfils reliable host (history ++ later) after index position call activity
      owed := by
  have still :
      ∀ context, Installed host.context history context →
        Installed host.context (history ++ later) context :=
    fun _ installed => installed.append later
  refine ⟨fulfils.owes.append later, ?_, fun _ => ?_⟩
  · rw [same_log]
    exact fulfils.received.mono still id
  · rw [same_log]
    exact (fulfils.headway running).mono still same_context

/-- One thread has moved, and the call that it is at is accounted for. -/
theorem Fulfilled.of_turned
    (fulfilled : Fulfilled reliable host calls history machine)
    (taken : Taken host calls history machine index thread after)
    (turned : Turned machine index thread next after)
    (extended_eq : extended = history ++ later)
    (current :
      ∀ own position call,
        calls[index]? = some own →
          own[position]? = some call →
            position + 1 = next.begun →
              ∃ owed,
                Fulfils reliable host extended after index position call
                  next.activity owed) :
    Fulfilled reliable host calls extended after := by
  subst extended_eq
  rcases turned with ⟨threads_eq, ⟨happenings, log_eq⟩, moves⟩
  intro other otherThread own position call otherMember found call_found begun
  rw [threads_eq] at otherMember
  rcases getElem?_set_cases otherMember with ⟨rfl, rfl⟩ | ⟨different, unmoved⟩
  · by_cases current_call : position + 1 = otherThread.begun
    · rw [otherThread.activityAt_of_current current_call]
      exact current own position call found call_found current_call
    · rcases moves.idle_of_earlier begun current_call with ⟨begun_before, idle⟩
      rcases fulfilled other thread own position call taken.member found call_found
        begun_before with ⟨owed, fulfils⟩
      rw [idle] at fulfils
      rw [Thread.activityAt, if_neg current_call]
      refine ⟨owed, fulfils.elsewhere taken.running later ?_ ?_⟩
      · rw [log_eq]
        exact abortingOf_logged_elsewhere fun _ => by omega
      · intro _ _ impossible
        cases impossible
  · rcases fulfilled other otherThread own position call unmoved found call_found
      begun with ⟨owed, fulfils⟩
    refine ⟨owed, fulfils.elsewhere taken.running later ?_ ?_⟩
    · rw [log_eq]
      exact abortingOf_logged_elsewhere fun same => absurd same.symm different
    · intro delivery remaining dispatching
      unfold Thread.activityAt at dispatching
      split at dispatching
      · exact taken.reached.lockKept.context_of_turn unmoved dispatching taken.member
          taken.turn
      · cases dispatching

/-! ## The call whose turn it is -/

/-- How far a thread has come with the call that it is in the middle of. -/
theorem Fulfilled.current
    {own : List Call}
    (fulfilled : Fulfilled reliable host calls history machine)
    (taken : Taken host calls history machine index thread after)
    (found : calls[index]? = some own)
    (call_found : own[position]? = some call)
    (at_it : position + 1 = thread.begun) :
    ∃ owed,
      Owes host history index position call owed ∧
        Headway reliable (Installed host.context history) machine.host.context owed
          thread.activity (abortingOf machine.log index position) := by
  have begun : position < thread.begun :=
    Nat.lt_of_lt_of_eq (Nat.lt_succ_self position) at_it
  rcases fulfilled index thread own position call taken.member found call_found begun
    with ⟨owed, fulfils⟩
  have headway := fulfils.headway taken.running
  rw [thread.activityAt_of_current at_it] at headway
  exact ⟨owed, fulfils.owes, headway⟩

/-- A thread begins a call, and with this turn nothing is received that aborts. -/
theorem Fulfilled.of_begun
    {rest : List Call}
    {scopes : List (String × Severity)}
    (fulfilled : Fulfilled reliable host calls history machine)
    (taken : Taken host calls history machine index thread after)
    (idle : thread.activity = .idle)
    (following : thread.calls = call :: rest)
    (free : call.locks = true → machine.holder = none)
    (threads_eq :
      after.threads =
        machine.threads.set index ⟨activity, rest, thread.begun + 1, scopes⟩)
    (log_eq :
      after.log =
        (machine.logged index ⟨activity, rest, thread.begun + 1, scopes⟩
          happenings).log)
    (quiet : happenings.filterMap Happening.aborting? = [])
    (extended_eq : extended = history ++ later)
    (owes : Owes host extended index thread.begun call owed)
    (headway :
      Headway reliable (Installed host.context extended) after.host.context owed activity
        []) :
    Fulfilled reliable host calls extended after := by
  apply
    fulfilled.of_turned taken
      ⟨threads_eq, ⟨happenings, log_eq⟩, .begins idle free following rfl⟩
      extended_eq
  intro own position current found current_found at_it
  have position_eq : position = thread.begun := Nat.succ.inj at_it
  subst position_eq
  have orderly := taken.reached.orderly
  have owns := orderly.owns_of_found taken.member found
  rw [owns.getElem?_begun following] at current_found
  cases current_found
  refine ⟨owed, .of_headway owes ?_⟩
  have nothing_before : abortingOf machine.log index thread.begun = [] := by
    apply orderly.abortingOf_eq_nil
    intro same same_member
    rw [taken.member] at same_member
    cases same_member
    exact Nat.le_refl _
  rw [log_eq, abortingOf_logged at_it, quiet, List.append_nil, nothing_before]
  exact headway

/-- A thread goes on with the call that it is in the middle of. -/
theorem Fulfilled.of_busy
    {before : Activity}
    (fulfilled : Fulfilled reliable host calls history machine)
    (taken : Taken host calls history machine index thread after)
    (doing : thread.activity = before)
    (busy : before ≠ .idle)
    (threads_eq :
      after.threads =
        machine.threads.set index { thread with activity := activity })
    (log_eq : after.log = (machine.logged index thread happenings).log)
    (current :
      ∀ own position call owed,
        calls[index]? = some own →
          own[position]? = some call →
            position + 1 = thread.begun →
              Owes host history index position call owed →
                Headway reliable (Installed host.context history) machine.host.context
                    owed before (abortingOf machine.log index position) →
                  ∃ owed,
                    Owes host history index position call owed ∧
                      Headway reliable (Installed host.context history)
                        after.host.context owed activity
                        (abortingOf machine.log index position ++
                          happenings.filterMap Happening.aborting?)) :
    Fulfilled reliable host calls history after := by
  apply
    fulfilled.of_turned taken
      ⟨threads_eq, ⟨happenings, log_eq⟩, .goesOn (doing ▸ busy) rfl rfl⟩
      (List.append_nil history).symm
  intro own position call found call_found (at_it : position + 1 = thread.begun)
  rcases fulfilled.current taken found call_found at_it with ⟨owed, owes, headway⟩
  rw [doing] at headway
  rcases current own position call owed found call_found at_it owes headway with
    ⟨owed, owes, headway⟩
  refine ⟨owed, .of_headway owes ?_⟩
  rw [log_eq, abortingOf_logged at_it]
  exact headway

/-- A thread goes on, and owes what it owed before. -/
theorem Fulfilled.of_headway
    {before : Activity}
    (fulfilled : Fulfilled reliable host calls history machine)
    (taken : Taken host calls history machine index thread after)
    (doing : thread.activity = before)
    (busy : before ≠ .idle)
    (threads_eq :
      after.threads =
        machine.threads.set index { thread with activity := activity })
    (log_eq : after.log = (machine.logged index thread happenings).log)
    (gets_on :
      ∀ owed receptions,
        Headway reliable (Installed host.context history) machine.host.context owed before
            receptions →
          Headway reliable (Installed host.context history) after.host.context owed activity
            (receptions ++ happenings.filterMap Happening.aborting?)) :
    Fulfilled reliable host calls history after := by
  apply fulfilled.of_busy taken doing busy threads_eq log_eq
  intro _ _ _ owed _ _ _ owes headway
  exact ⟨owed, owes, gets_on owed _ headway⟩

/-- A thread goes on without anything received. -/
theorem Fulfilled.of_unlogged
    {before : Activity}
    (fulfilled : Fulfilled reliable host calls history machine)
    (taken : Taken host calls history machine index thread after)
    (doing : thread.activity = before)
    (busy : before ≠ .idle)
    (threads_eq :
      after.threads =
        machine.threads.set index { thread with activity := activity })
    (log_eq : after.log = machine.log)
    (gets_on :
      ∀ owed receptions,
        Headway reliable (Installed host.context history) machine.host.context owed before
            receptions →
          Headway reliable (Installed host.context history) after.host.context owed activity
            receptions) :
    Fulfilled reliable host calls history after := by
  apply
    fulfilled.of_headway taken doing busy threads_eq
      (log_eq.trans (log_logged_nil machine index thread).symm)
  intro owed receptions headway
  rw [List.filterMap_nil, List.append_nil]
  exact gets_on owed receptions headway

/-- Whoever holds the lock without initializing finds the pair of one initialization. -/
theorem Tracks.installed
    (tracks : Tracks kept host.context history machine)
    (lockKept : machine.LockKept)
    (member : machine.threads[index]? = some thread)
    (apart : thread.activity.initializes = false)
    (available : machine.holder = none ∨ machine.holder = some index) :
    Installed host.context history machine.host.context := by
  rcases tracks.quiet_or_critical with
    follows | ⟨other, busy, _, _, busy_found, initializing, _, _⟩
  · exact installed_of_follows follows
  · have owner :=
      (lockKept other busy busy_found).mp
        (Activity.holdsLock_of_initializes initializing)
    rcases available with free | held
    · rw [free] at owner
      cases owner
    · have same : index = other := Option.some.inj (held.symm.trans owner)
      subst same
      rw [member] at busy_found
      cases busy_found
      rw [apart] at initializing
      cases initializing

/-- The pair of an initialization has a reliable logger, if all of them have. -/
theorem Reached.reliable_of_installed
    {context : Context}
    (loggers : ReliableLoggers host.context calls)
    (reached : Reached (start host calls) history machine)
    (installed : Installed host.context history context) :
    context.logger.Reliable := by
  rcases installed with ⟨logger_eq, _⟩ | ⟨admission, member, logger_eq, _⟩
  · rw [logger_eq]
    exact loggers.original
  · rcases reached.call_of_mem member with ⟨own, found, call_found⟩
    rw [logger_eq]
    exact
      loggers.installed own (List.mem_of_getElem? found) admission.request
        (List.mem_of_getElem? call_found)

/-! ## What every turn preserves -/

theorem fulfilled_handLine
    {delivery : Delivery}
    {text : String}
    {remaining : List String}
    (sparing : SparingCalls kept calls)
    (fulfilled :
      Fulfilled (ReliableLoggers host.context calls) host calls history machine)
    (taken :
      Taken host calls history machine index thread
        (machine.handLine index thread delivery text remaining))
    (dispatching : thread.activity = .dispatching delivery (text :: remaining)) :
    Fulfilled (ReliableLoggers host.context calls) host calls history
      (machine.handLine index thread delivery text remaining) := by
  have lockKept := taken.reached.lockKept
  have held := (lockKept index thread taken.member).mp (by rw [dispatching]; rfl)
  have installed :=
    (taken.reached.tracks sparing).installed lockKept taken.member
      (by rw [dispatching]; rfl) (Or.inr held)
  cases fault : machine.host.context.logger.fault? text with
  | none =>
      have hand_eq := @Emission.hand_of_taken machine.host delivery.header text fault
      simp only [handLine, hand_eq, Emission.take] at taken ⊢
      apply fulfilled.of_headway taken dispatching Activity.noConfusion rfl rfl
      intro owed receptions headway
      exact headway.handed
  | some panic =>
      have hand_eq :=
        @Emission.hand_of_fault machine.host delivery.header text panic fault
      simp only [handLine, hand_eq] at taken ⊢
      apply fulfilled.of_headway taken dispatching Activity.noConfusion rfl rfl
      intro owed receptions headway
      rw [List.map_nil, List.filterMap_nil, List.append_nil]
      apply headway.faulted
      intro loggers
      have reliable := taken.reached.reliable_of_installed loggers installed text
      rw [fault] at reliable
      cases reliable

theorem fulfilled_beginCall
    {rest : List Call}
    (fulfilled : Fulfilled reliable host calls history machine)
    (taken :
      Taken host calls history machine index thread
        (machine.beginCall index
          { thread with calls := rest, begun := thread.begun + 1 } call))
    (idle : thread.activity = .idle)
    (following : thread.calls = call :: rest)
    (free : call.locks = true → machine.holder = none)
    (no_request : call.request? = none)
    (pair : call.sparesPair = true) :
    Fulfilled reliable host calls history
      (machine.beginCall index
        { thread with calls := rest, begun := thread.begun + 1 } call) := by
  have unlogged := log_logged_nil machine index
  have same := (List.append_nil history).symm
  cases call with
  | close record =>
      simp only [beginCall] at taken ⊢
      split at taken
      · next passes =>
          rw [if_pos passes]
          exact fulfilled.of_begun taken idle following free rfl (unlogged _).symm rfl
            same (.emission rfl) (.waits rfl rfl)
      · next filtered =>
          rw [if_neg filtered]
          have returns : record.severity.aborts = false := by
            apply eq_false_of_ne_true
            intro aborts
            rw [Severity.aborts_iff] at aborts
            exact filtered
              (machine.host.context.shouldEmit_of_isFatal (by rw [aborts]; rfl))
          exact fulfilled.of_begun taken idle following free rfl (unlogged _).symm rfl
            same (.of_returns rfl returns) (idle ▸ .completed .nothing)
  | emit header message =>
      exact fulfilled.of_begun taken idle following free rfl (unlogged _).symm rfl
        same (.emission rfl) (.waits rfl rfl)
  | setThreshold severity =>
      exact fulfilled.of_begun taken idle following free rfl rfl rfl
        same (.nothing rfl rfl) (idle ▸ .completed .nothing)
  | openScope id severity =>
      exact fulfilled.of_begun taken idle following free rfl rfl rfl
        same (.nothing rfl rfl) (idle ▸ .completed .nothing)
  | closeScope id =>
      simp only [beginCall] at taken ⊢
      split at taken
      · exact fulfilled.of_begun taken idle following free rfl (unlogged _).symm rfl
          same (.nothing rfl rfl) (idle ▸ .completed .nothing)
      · exact fulfilled.of_begun taken idle following free rfl rfl rfl
          same (.nothing rfl rfl) (idle ▸ .completed .nothing)
  | setUp request =>
      cases no_request
  | setLogger logger =>
      cases pair
  | setAborter aborter =>
      cases pair

theorem aborting?_stashHappenings (request : Initialization) (context : Context) :
    (stashHappenings request context).filterMap Happening.aborting? = [] := by
  unfold stashHappenings
  split <;> rfl

/-- The current call of a thread that has taken the lock to initialize the context. -/
theorem Reached.current_request
    {own : List Call}
    {earlier : List Admission}
    {request : Initialization}
    (reached :
      Reached (start host calls) (earlier ++ [⟨index, position, request⟩]) machine)
    (found : calls[index]? = some own)
    (current : own[position]? = some call) :
    call = .setUp request := by
  rcases reached.call_of_mem (List.mem_append_right earlier (List.mem_singleton_self _))
    with ⟨same, same_found, same_current⟩
  rw [found] at same_found
  cases same_found
  exact Option.some.inj (current.symm.trans same_current)

/-- An initialization leaves the lock, and what it has to report is what it owes. -/
theorem fulfilled_of_leaving
    {problem : Option TagsError}
    (sparing : SparingCalls kept calls)
    (fulfilled : Fulfilled reliable host calls history machine)
    (taken : Taken host calls history machine index thread after)
    (leaving : thread.activity = .leaving problem)
    (threads_eq :
      after.threads =
        machine.threads.set index { thread with activity := activity })
    (log_eq : after.log = machine.log)
    (begins :
      Headway reliable (Installed host.context history) after.host.context
        (problem.map (Delivery.ofReport host.reportSite)) activity []) :
    Fulfilled reliable host calls history after := by
  rcases (taken.reached.tracks sparing).critical index thread taken.member
    (by rw [leaving]; rfl) with ⟨earlier, request, history_eq, critical⟩
  rw [leaving] at critical
  apply
    fulfilled.of_busy taken leaving nofun threads_eq
      (log_eq.trans (log_logged_nil machine index thread).symm)
  intro own position call owed found call_found at_it owes headway
  have position_eq : thread.begun - 1 = position := by omega
  rw [position_eq] at history_eq
  subst history_eq
  cases critical with
  | leaving follows =>
      have request_eq := taken.reached.current_request found call_found
      subst request_eq
      refine ⟨_, .report rfl, ?_⟩
      rw [headway.eq_nil rfl]
      exact begins

/-- A call of an aborter is the last of what a call owes, also if the process ends there. -/
theorem fulfilled_abort
    {aborter : Aborter}
    {message : String}
    (fulfilled : Fulfilled reliable host calls history machine)
    (taken :
      Taken host calls history machine index thread
        (machine.abort index thread aborter message))
    (announced : thread.activity = .announced aborter message) :
    Fulfilled reliable host calls history
      (machine.abort index thread aborter message) := by
  simp only [abort] at taken ⊢
  split at taken
  · have turned :
        Turned machine index thread thread
          { machine.logged index thread [.event (.abort aborter message)] with
            ended := true } :=
      ⟨(set_getElem?_self taken.member).symm, ⟨_, rfl⟩,
        .goesOn (announced ▸ Activity.noConfusion) rfl rfl⟩
    apply fulfilled.of_turned taken turned (List.append_nil history).symm
    intro own position call found call_found at_it
    rcases fulfilled.current taken found call_found at_it with ⟨owed, owes, headway⟩
    rw [announced] at headway
    refine
      ⟨owed, owes, ?_, fun running => absurd running.symm Bool.false_ne_true⟩
    rw [abortingOf_logged at_it]
    exact headway.aborted
  · apply fulfilled.of_headway taken announced Activity.noConfusion rfl rfl
    intro owed receptions headway
    exact .completed headway.aborted

theorem fulfilled_of_turn
    (sparing : SparingCalls kept calls)
    (fulfilled :
      Fulfilled (ReliableLoggers host.context calls) host calls history machine)
    (taken : Taken host calls history machine index thread after)
    (turned_down : machine.admits? index thread = none) :
    Fulfilled (ReliableLoggers host.context calls) host calls history after := by
  have turn := taken.turn
  cases turn with
  | pauses =>
      exact fulfilled
  | @begins call rest idle following free =>
      have orderly := taken.reached.orderly
      rcases orderly.owns index thread taken.member with ⟨own, found, owns⟩
      exact fulfilled_beginCall fulfilled taken idle following free
        (request?_of_not_admits turned_down idle following free)
        (sparing.pair own (List.mem_of_getElem? found) call
          (List.mem_of_getElem? (owns.getElem?_begun following)))
  | acquires waiting free =>
      have installed :=
        (taken.reached.tracks sparing).installed taken.reached.lockKept taken.member
          (by rw [waiting]; rfl) (Or.inl free)
      apply fulfilled.of_unlogged taken waiting nofun rfl rfl
      intro owed receptions headway
      exact headway.acquires installed
  | hands dispatching =>
      exact fulfilled_handLine sparing fulfilled taken dispatching
  | releases dispatched =>
      apply fulfilled.of_unlogged taken dispatched nofun rfl rfl
      intro owed receptions headway
      exact headway.releases
  | announces aborting =>
      apply fulfilled.of_unlogged taken aborting nofun rfl rfl
      intro owed receptions headway
      exact headway.announces machine.host
  | aborts announced =>
      exact fulfilled_abort fulfilled taken announced
  | installs installing =>
      apply fulfilled.of_unlogged taken installing nofun rfl rfl
      intro owed receptions headway
      exact headway.initializing rfl rfl
  | yields claiming initialized =>
      apply fulfilled.of_unlogged taken claiming nofun rfl rfl
      intro owed receptions headway
      exact headway.initializing rfl rfl
  | claims claiming fresh =>
      apply fulfilled.of_unlogged taken claiming nofun rfl rfl
      intro owed receptions headway
      exact headway.initializing rfl rfl
  | @stashes request stashing =>
      apply fulfilled.of_headway taken stashing nofun rfl rfl
      intro owed receptions headway
      rw [aborting?_stashHappenings, List.append_nil]
      exact headway.initializing rfl rfl
  | leaves leaving =>
      exact fulfilled_of_leaving sparing fulfilled taken leaving rfl rfl
        (.completed .nothing)
  | @reports problem leaving =>
      have site_eq : machine.host.reportSite = host.reportSite := by
        rcases taken.reached with ⟨schedule, _, rfl⟩
        exact run_reportSite host calls schedule
      have owes :
          some (Delivery.ofReport host.reportSite problem) =
            (Delivery.ofReport machine.host.reportSite problem).aborting? := by
        rw [site_eq]
        rfl
      exact fulfilled_of_leaving sparing fulfilled taken leaving rfl rfl
        (.waits rfl owes)

/-- Under every schedule each call gets received what it owes, or a beginning of it. -/
theorem Reached.fulfilled
    (sparing : SparingCalls kept calls)
    (reached : Reached (start host calls) history machine) :
    Fulfilled (ReliableLoggers host.context calls) host calls history machine := by
  refine
    @Reached.induction (start host calls) machine history
      (Fulfilled (ReliableLoggers host.context calls) host calls) ?_ ?_ ?_
      reached
  · intro index thread own position call member _ _ begun
    rw [start, List.getElem?_map] at member
    rcases Option.map_eq_some_iff.mp member with ⟨own, _, rfl⟩
    cases begun
  · intro history machine index thread request rest reached fulfilled running member
      idle following free
    have taken :
        Taken host calls history machine index thread
          ((machine.setHolder (some index)).setThread index
            ⟨.installing request, rest, thread.begun + 1, thread.scopes⟩) :=
      ⟨reached, running, member, .begins idle following fun _ => free⟩
    exact fulfilled.of_begun taken idle following (fun _ => free) rfl
      (log_logged_nil machine index _).symm rfl rfl (.report rfl) (.initializes rfl)
  · intro history machine after index thread reached fulfilled running member
      turned_down turn
    exact fulfilled_of_turn sparing fulfilled ⟨reached, running, member, turn⟩
      turned_down

/-! ## What follows for a single call -/

section Call

variable
    {own : List Call}
    {delivery : Delivery}
    {earlier : List Admission}
    {admission : Admission}

/-- What was received of the message that a call hands over. -/
theorem Reached.received_of_delivery
    (sparing : SparingCalls kept calls)
    (reached : Reached (start host calls) history machine)
    (member : machine.threads[index]? = some thread)
    (found : calls[index]? = some own)
    (call_found : own[position]? = some call)
    (begun : position < thread.begun)
    (delivers : call.delivery? = some delivery) :
    Received (Installed host.context history)
      (ReliableLoggers host.context calls ∧ thread.activityAt position = .idle)
      delivery.aborting? (abortingOf machine.log index position) := by
  rcases reached.fulfilled sparing index thread own position call member found
    call_found begun with ⟨owed, owes, received, _⟩
  cases owes with
  | emission delivers_too =>
      rw [delivers] at delivers_too
      cases delivers_too
      exact received
  | report history_eq =>
      cases delivers
  | nothing silent no_request =>
      rw [delivers] at silent
      cases silent

/-- What was received of the report of an initialization. -/
theorem Reached.received_of_admission
    (sparing : SparingCalls kept calls)
    (reached : Reached (start host calls) history machine)
    (history_eq : history = earlier ++ admission :: later)
    (member : machine.threads[admission.thread]? = some thread) :
    Received (Installed host.context history)
      (ReliableLoggers host.context calls ∧
        thread.activityAt admission.call = .idle)
      ((admission.request.apply (contextAfterAll host.context earlier)).1.map
        (Delivery.ofReport host.reportSite))
      (abortingOf machine.log admission.thread admission.call) := by
  have in_history : admission ∈ history := by
    rw [history_eq]
    exact List.mem_append_right earlier List.mem_cons_self
  rcases reached.call_of_mem in_history with ⟨own, found, call_found⟩
  have begun := reached.begun_of_found in_history member
  rcases reached.fulfilled sparing _ thread own _ _ member found call_found begun with
    ⟨owed, owes, received, _⟩
  cases owes with
  | emission delivers =>
      cases delivers
  | report history_eq_too =>
      rw [(reached.eq_of_place history_eq history_eq_too rfl).1] at received
      exact received
  | nothing silent no_request =>
      cases no_request

/-- Nothing was received of a call that neither hands over a message nor initializes. -/
theorem Reached.abortingOf_eq_nil
    (sparing : SparingCalls kept calls)
    (reached : Reached (start host calls) history machine)
    (member : machine.threads[index]? = some thread)
    (found : calls[index]? = some own)
    (call_found : own[position]? = some call)
    (begun : position < thread.begun)
    (silent : call.delivery? = none)
    (no_request : call.request? = none) :
    abortingOf machine.log index position = [] := by
  rcases reached.fulfilled sparing index thread own position call member found
    call_found begun with ⟨owed, owes, received, _⟩
  cases owes with
  | emission delivers =>
      rw [silent] at delivers
      cases delivers
  | report history_eq =>
      cases no_request
  | nothing _ _ =>
      exact received.eq_nil

end Call

end Machine

end GatedLog.Concurrency
