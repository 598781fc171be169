import GatedLog.Proofs.Concurrency.Lock

/-!
# Writes of the threshold

Whoever installs a threshold swaps it for the one before, and the log keeps both.
So the log has all writes of the threshold in the order in which they happened,
each with the call that made it.

A turn writes at most once.  The threshold is always the one that the latest
write has left, and every write has found what the write before it left.
-/

namespace GatedLog

/-- The threshold that a first initialization installs, if its tags ask for one. -/
def Initialization.installs? (request : Initialization) : Option Severity :=
  match request.level with
  | .ok installed => installed
  | .error _ => none

namespace Concurrency

/-- A write of the threshold: the call that made it, what it found, and what it left. -/
structure Write where
  thread : Nat
  call : Nat
  previous : Severity
  current : Severity
  deriving DecidableEq, Repr

/-- The write that a happening of a call is, if it is one. -/
def Happening.write? (thread call : Nat) : Happening → Option Write
  | .event _ => none
  | .threshold previous current => some ⟨thread, call, previous, current⟩

/-- The write that an entry of the log is, if it is one. -/
def Entry.write? (entry : Entry) : Option Write :=
  entry.happening.write? entry.thread entry.call

/-- What the latest of some writes has left: a new context starts with `info`. -/
def latest (writes : List Write) : Severity :=
  (writes.getLast?.map Write.current).getD .info

@[simp]
theorem latest_concat (writes : List Write) (write : Write) :
    latest (writes ++ [write]) = write.current := by
  simp [latest]

/-- Every write has found what the one before it left. -/
def Chained (writes : List Write) : Prop :=
  ∀ (earlier : List Write) (write : Write) (later : List Write),
    writes = earlier ++ write :: later → write.previous = latest earlier

theorem chained_nil : Chained [] := by
  intro earlier write later writes_eq
  exact
    absurd writes_eq.symm
      (List.append_ne_nil_of_right_ne_nil earlier (List.cons_ne_nil write later))

theorem Chained.concat
    {writes : List Write}
    {write : Write}
    (chained : Chained writes)
    (previous_eq : write.previous = latest writes) :
    Chained (writes ++ [write]) := by
  intro earlier other later writes_eq
  rcases List.eq_nil_or_concat later with rfl | ⟨between, last, rfl⟩
  · rcases List.append_inj' writes_eq rfl with ⟨rfl, same⟩
    cases same
    exact previous_eq
  · rw [List.concat_eq_append, ← List.cons_append, ← List.append_assoc] at writes_eq
    exact chained earlier other between (List.append_inj' writes_eq rfl).1

namespace Call

/-- The threshold that a call installs with its first step, these scopes being open. -/
def installs? (scopes : List (String × Severity)) : Call → Option Severity
  | .setThreshold severity => some severity
  | .openScope _ severity => some severity
  | .closeScope id => scopes.lookup id
  | _ => none

/--
What a call leaves of things kept by open scopes, newest first.  A scope that it
opens keeps something, and one that it closes is the newest of that name.
-/
def keep {Kept : Type} (kept : Kept) (scopes : List (String × Kept)) :
    Call → List (String × Kept)
  | .openScope id _ => (id, kept) :: scopes
  | .closeScope id => scopes.eraseP fun scope => scope.1 == id
  | _ => scopes

/-- If no scope has a name, none is closed by it. -/
theorem keep_closeScope_of_lookup
    {Kept : Type}
    {scopes : List (String × Kept)}
    {id : String}
    (unknown : scopes.lookup id = none)
    (kept : Kept) :
    (Call.closeScope id).keep kept scopes = scopes := by
  apply List.eraseP_of_forall_not
  intro scope member same
  have found := List.lookup_eq_none_iff.mp unknown scope member
  rw [beq_iff_eq.mp same, bne_self_eq_false] at found
  cases found

end Call

namespace Activity

/-- Whether a thread in the middle of this may still store name and threshold. -/
def awaitsStash : Activity → Bool
  | .installing _ => true
  | .claiming _ => true
  | .stashing _ => true
  | _ => false

theorem awaitsStash_of_free
    {activity : Activity}
    (free : activity.holdsLock = false) :
    activity.awaitsStash = false := by
  cases activity <;> first | rfl | cases free

end Activity

namespace Machine

/-- The writes of the threshold, in the order in which they happened. -/
def writes (machine : Machine) : List Write :=
  machine.log.filterMap Entry.write?

/-- The writes of one call. -/
def writesOf (machine : Machine) (index position : Nat) : List Write :=
  machine.writes.filter fun write => write.thread = index ∧ write.call = position

variable
    {machine after : Machine}
    {index other position elsewhere : Nat}
    {thread next : Thread}
    {installed : Option Severity}

theorem writes_logged (happenings : List Happening) :
    (machine.logged index thread happenings).writes =
      machine.writes ++
        happenings.filterMap (Happening.write? index (thread.begun - 1)) := by
  rw [writes, logged, List.filterMap_append, List.filterMap_map]
  rfl

/-- What loggers and aborters receive is no write. -/
theorem writes_logged_events (events : List Event) :
    (machine.logged index thread (events.map .event)).writes = machine.writes := by
  rw [writes_logged, List.filterMap_map, List.append_right_eq_self,
    List.filterMap_eq_nil_iff]
  exact fun _ _ => rfl

/-! ## What a turn writes -/

/-- A call has installed this threshold, or none, and that is all that was written. -/
structure Wrote
    (machine after : Machine)
    (index position : Nat)
    (installed : Option Severity) : Prop where
  threshold_eq :
    after.host.context.threshold =
      (installed.map Threshold.ofSeverity).getD machine.host.context.threshold
  writes_eq :
    after.writes =
      machine.writes ++
        (installed.map fun severity =>
          ⟨index, position, machine.host.context.minimum, severity⟩).toList

/-- Nothing was installed, nor noted of that kind. -/
theorem wrote_none
    (threshold_eq :
      after.host.context.threshold = machine.host.context.threshold)
    (writes_eq : after.writes = machine.writes) :
    Wrote machine after index position none :=
  ⟨threshold_eq, by rw [writes_eq]; exact (List.append_nil _).symm⟩

/-- The writes of a call, after a turn that may have added one. -/
theorem Wrote.writesOf_eq (wrote : Wrote machine after index position installed) :
    after.writesOf index position =
      machine.writesOf index position ++
        (installed.map fun severity =>
          ⟨index, position, machine.host.context.minimum, severity⟩).toList := by
  rw [writesOf, wrote.writes_eq, List.filter_append]
  cases installed <;> simp [writesOf]

/-- What a call has left as threshold, after a turn that may have added something. -/
theorem Wrote.map_current_eq (wrote : Wrote machine after index position installed) :
    (after.writesOf index position).map Write.current =
      (machine.writesOf index position).map Write.current ++ installed.toList := by
  rw [wrote.writesOf_eq, List.map_append]
  cases installed <;> rfl

/-- The turn of one call adds nothing to the writes of another one. -/
theorem Wrote.writesOf_elsewhere
    (wrote : Wrote machine after index position installed)
    (different : index = other → position ≠ elsewhere) :
    after.writesOf other elsewhere = machine.writesOf other elsewhere := by
  rw [writesOf, wrote.writes_eq, List.filter_append]
  cases installed <;> simp [writesOf]
  exact different

/-- A turn that writes nothing leaves the writes of every call as they were. -/
theorem Wrote.writesOf_of_none
    (wrote : Wrote machine after index position none)
    (other elsewhere : Nat) :
    after.writesOf other elsewhere = machine.writesOf other elsewhere := by
  have writes_eq : after.writes = machine.writes :=
    wrote.writes_eq.trans (List.append_nil _)
  rw [writesOf, writesOf, writes_eq]

/-- Every write is in the log, with the call that made it. -/
theorem exists_entry_of_mem_writes
    {write : Write}
    (member : write ∈ machine.writes) :
    ∃ entry ∈ machine.log,
      entry.thread = write.thread ∧ entry.call = write.call := by
  rcases List.mem_filterMap.mp member with ⟨entry, entry_member, is_write⟩
  rcases entry with ⟨thread, call, happening⟩
  cases happening with
  | event event =>
      cases is_write
  | threshold previous current =>
      cases is_write
      exact ⟨_, entry_member, rfl, rfl⟩

/-- The threshold is that of the latest write, and so was what each write found. -/
structure Ledger (machine : Machine) : Prop where
  threshold_eq : machine.host.context.threshold = .ofSeverity (latest machine.writes)
  chained : Chained machine.writes

theorem Ledger.minimum_eq (ledger : machine.Ledger) :
    machine.host.context.minimum = latest machine.writes := by
  rw [Context.minimum, ledger.threshold_eq, Threshold.severity_ofSeverity]

theorem Ledger.of_wrote
    (ledger : machine.Ledger)
    (wrote : Wrote machine after index position installed) :
    after.Ledger := by
  rcases wrote with ⟨threshold_eq, writes_eq⟩
  cases installed with
  | none =>
      have same : after.writes = machine.writes :=
        writes_eq.trans (List.append_nil _)
      exact
        ⟨threshold_eq.trans (same ▸ ledger.threshold_eq), same ▸ ledger.chained⟩
  | some severity =>
      simp only [Option.map_some, Option.toList_some] at writes_eq
      refine ⟨?_, ?_⟩
      · rw [threshold_eq, writes_eq, latest_concat]
        rfl
      · rw [writes_eq]
        exact ledger.chained.concat ledger.minimum_eq

/-! ## What bearing a turn has on the threshold -/

/-- What the first step of a call leaves of its thread and of the context. -/
structure Begins
    (machine : Machine)
    (index : Nat)
    (thread : Thread)
    (call : Call)
    (next : Thread)
    (after : Machine) : Prop where
  threads_eq : after.threads = machine.threads.set index next
  calls_eq : thread.calls = call :: next.calls
  begun_eq : next.begun = thread.begun + 1
  scopes_eq : next.scopes = call.keep machine.host.context.minimum thread.scopes
  initialized_eq :
    after.host.context.initialized = machine.host.context.initialized
  /-- Only an initialization comes to the point of storing name and threshold. -/
  awaits : next.activity.awaitsStash = true → ∃ request, call = .setUp request
  wrote : Wrote machine after index thread.begun (call.installs? thread.scopes)

/-- A turn of a thread, told apart from others by what it has to do with thresholds. -/
inductive Bearing (machine : Machine) (index : Nat) (thread : Thread) (after : Machine) :
    Prop where
  | pauses (same : after = machine) : Bearing machine index thread after
  /-- A call installs what it installs with its first step, if it does. -/
  | begins
      {call : Call}
      {next : Thread}
      (idle : thread.activity = .idle)
      (free : call.locks = true → machine.holder = none)
      (begins : Begins machine index thread call next after) :
      Bearing machine index thread after
  /-- A first initialization stores the threshold that its tags ask for. -/
  | stashes
      {request : Initialization}
      (threads_eq :
        after.threads =
          machine.threads.set index
            { thread with activity := .leaving request.problem? })
      (stashing : thread.activity = .stashing request)
      (wrote :
        Wrote machine after index (thread.begun - 1) request.installs?) :
      Bearing machine index thread after
  /-- Anything else that a thread does in the middle of a call. -/
  | goesOn
      {next : Thread}
      (threads_eq : after.threads = machine.threads.set index next)
      (busy : thread.activity ≠ .idle)
      (begun_eq : next.begun = thread.begun)
      (scopes_eq : next.scopes = thread.scopes)
      (phase :
        next.activity.awaitsStash = thread.activity.awaitsStash ∨
          (∃ request, thread.activity = .claiming request) ∧
            machine.host.context.initialized = true)
      (wrote : Wrote machine after index (thread.begun - 1) none) :
      Bearing machine index thread after

/-- A thread in the middle of something that leaves process and log as they are. -/
theorem bearing_of_busy
    {before activity : Activity}
    (threads_eq :
      after.threads =
        machine.threads.set index { thread with activity := activity })
    (doing : thread.activity = before)
    (busy : before ≠ .idle)
    (phase : activity.awaitsStash = before.awaitsStash)
    (threshold_eq :
      after.host.context.threshold = machine.host.context.threshold)
    (log_eq : after.log = machine.log) :
    Bearing machine index thread after :=
  .goesOn threads_eq (doing ▸ busy) rfl rfl (Or.inl (phase.trans (by rw [doing])))
    (wrote_none threshold_eq (congrArg (List.filterMap Entry.write?) log_eq))

theorem begins_beginCall
    {rest : List Call}
    {call : Call}
    (idle : thread.activity = .idle)
    (following : thread.calls = call :: rest) :
    ∃ next,
      Begins machine index thread call next
        (machine.beginCall index
          { thread with calls := rest, begun := thread.begun + 1 } call) := by
  have beyond : thread.activity.awaitsStash ≠ true := by
    rw [idle]
    exact Bool.false_ne_true
  cases call with
  | close record =>
      simp only [beginCall]
      split
      · exact
          ⟨_, rfl, following, rfl, rfl, rfl,
            fun awaits => absurd awaits Bool.false_ne_true, wrote_none rfl rfl⟩
      · exact
          ⟨_, rfl, following, rfl, rfl, rfl, fun awaits => absurd awaits beyond,
            wrote_none rfl rfl⟩
  | closeScope id =>
      simp only [beginCall]
      split
      · next unknown =>
          have kept := Call.keep_closeScope_of_lookup unknown machine.host.context.minimum
          refine
            ⟨_, rfl, following, rfl, kept.symm, rfl,
              fun awaits => absurd awaits beyond, ?_⟩
          rw [Call.installs?, unknown]
          exact wrote_none rfl rfl
      · next previous known =>
          refine
            ⟨_, rfl, following, rfl, rfl, rfl, fun awaits => absurd awaits beyond, ?_⟩
          rw [Call.installs?, known]
          exact ⟨rfl, writes_logged _⟩
  | setThreshold severity =>
      exact
        ⟨_, rfl, following, rfl, rfl, rfl, fun awaits => absurd awaits beyond,
          rfl, writes_logged _⟩
  | openScope id severity =>
      exact
        ⟨_, rfl, following, rfl, rfl, rfl, fun awaits => absurd awaits beyond,
          rfl, writes_logged _⟩
  | emit header message =>
      exact
        ⟨_, rfl, following, rfl, rfl, rfl,
          fun awaits => absurd awaits Bool.false_ne_true, wrote_none rfl rfl⟩
  | setUp request =>
      exact
        ⟨_, rfl, following, rfl, rfl, rfl, fun _ => ⟨request, rfl⟩,
          wrote_none rfl rfl⟩
  | _ =>
      exact
        ⟨_, rfl, following, rfl, rfl, rfl, fun awaits => absurd awaits beyond,
          wrote_none rfl rfl⟩

/-- What storing name and threshold writes is the threshold that was asked for. -/
theorem wrote_stash
    (request : Initialization)
    (next : Thread) :
    Wrote machine
      (((machine.setContext (request.stash machine.host.context)).logged index thread
          (stashHappenings request machine.host.context)).setThread index next)
      index (thread.begun - 1) request.installs? := by
  constructor
  · simp only [setThread, logged, setContext, Host.withContext, Initialization.stash,
      Initialization.installs?]
    rcases request.level with problem | _ | severity <;> rfl
  · refine (writes_logged _).trans ?_
    simp only [stashHappenings, Initialization.installs?]
    rcases request.level with problem | _ | severity <;> rfl

/-- Every turn has one of these bearings. -/
theorem bearing_of_turn
    (member : machine.threads[index]? = some thread)
    (turn : Turn machine index thread after) :
    Bearing machine index thread after := by
  cases turn with
  | pauses =>
      exact .pauses rfl
  | begins idle following free =>
      rcases begins_beginCall idle following with ⟨next, begins⟩
      exact .begins idle free begins
  | @hands delivery text remaining dispatching =>
      have context_eq :=
        @context_handLine machine index thread delivery text remaining
      have threshold_eq := congrArg Context.threshold context_eq
      simp only [handLine] at threshold_eq ⊢
      split at threshold_eq
      all_goals
        exact
          .goesOn rfl (by rw [dispatching]; exact Activity.noConfusion) rfl rfl
            (Or.inl (by rw [dispatching]; rfl))
            (wrote_none threshold_eq (writes_logged_events _))
  | @aborts aborter message announced =>
      have busy : thread.activity ≠ .idle := by
        rw [announced]
        exact Activity.noConfusion
      simp only [abort]
      split
      · exact
          .goesOn (set_getElem?_self member).symm busy rfl rfl (Or.inl rfl)
            (wrote_none rfl (writes_logged_events [_]))
      · exact
          .goesOn rfl busy rfl rfl (Or.inl (by rw [announced]; rfl))
            (wrote_none rfl (writes_logged_events [_]))
  | stashes stashing =>
      exact .stashes rfl stashing (wrote_stash _ _)
  | yields claiming initialized =>
      exact
        .goesOn rfl (by rw [claiming]; exact Activity.noConfusion) rfl rfl
          (Or.inr ⟨⟨_, claiming⟩, initialized⟩) (wrote_none rfl rfl)
  | acquires waiting free =>
      exact bearing_of_busy rfl waiting Activity.noConfusion rfl rfl rfl
  | claims claiming fresh =>
      exact bearing_of_busy rfl claiming Activity.noConfusion rfl rfl rfl
  | releases dispatched =>
      exact
        bearing_of_busy rfl dispatched Activity.noConfusion
          (Activity.awaitsStash_of_free (holdsLock_afterDelivery _ _)) rfl rfl
  | announces aborting =>
      exact
        bearing_of_busy rfl aborting Activity.noConfusion
          (Activity.awaitsStash_of_free (holdsLock_announcing _ _ _)) rfl rfl
  | installs installing =>
      exact bearing_of_busy rfl installing Activity.noConfusion rfl rfl rfl
  | leaves leaving =>
      exact bearing_of_busy rfl leaving Activity.noConfusion rfl rfl rfl
  | reports leaving =>
      exact bearing_of_busy rfl leaving Activity.noConfusion rfl rfl rfl

/-- Every turn writes the threshold at most once. -/
theorem Bearing.wrote (bearing : Bearing machine index thread after) :
    ∃ position installed, Wrote machine after index position installed := by
  cases bearing with
  | pauses same =>
      exact ⟨0, none, wrote_none (by rw [same]) (by rw [same])⟩
  | begins _ _ begins =>
      exact ⟨_, _, begins.wrote⟩
  | stashes _ _ wrote =>
      exact ⟨_, _, wrote⟩
  | goesOn _ _ _ _ _ wrote =>
      exact ⟨_, _, wrote⟩

/-- The ledger is kept after every schedule. -/
theorem ledger_run
    {host : Host}
    (untouched : host.context.threshold = .ofSeverity .info)
    (calls : List (List Call))
    (schedule : List Nat) :
    ((start host calls).run schedule).Ledger := by
  apply run_invariant
  · intro machine after index thread ledger member turn
    rcases (bearing_of_turn member turn).wrote with ⟨position, installed, wrote⟩
    exact ledger.of_wrote wrote
  · exact ⟨untouched, chained_nil⟩

end Machine

end Concurrency

end GatedLog
