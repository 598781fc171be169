import GatedLog.Proofs.Concurrency.Fulfilled
import GatedLog.Proofs.Host

/-!
# Of initializations that race, the first to take the lock counts

Any number of threads initialize one context, each call with a name, tags and a
pair of its own.  Whatever the schedule, name and tags of exactly one of them
take effect, those of the first to take the lock, and they take effect as a
whole before any of the calls is over.  The pair is that of the last one.
-/

namespace GatedLog

/-- The threshold after a first initialization. -/
def Initialization.thresholdAfter
    (request : Initialization)
    (threshold : Threshold) :
    Threshold :=
  match request.level with
  | .ok (some severity) => .ofSeverity severity
  | _ => threshold

/-- Name and threshold are stored together, whatever the tags are. -/
theorem Initialization.stash_eq (request : Initialization) (context : Context) :
    request.stash context =
      { context with
        tag := request.tagAfter context.tag
        threshold := request.thresholdAfter context.threshold } := by
  rcases level : request.level with problem | _ | severity
  · simp only [stash, thresholdAfter, level]
  · simp only [stash, thresholdAfter, level]
  · simp only [stash, thresholdAfter, level]
    rfl

/-- A context that was initialized for the first time, by a request, as it was then. -/
structure Context.InitializedBy
    (context : Context)
    (request : Initialization)
    (origin : Context) : Prop where
  initialized : context.initialized = true
  tag_eq : context.tag = request.tagAfter origin.tag
  threshold_eq : context.threshold = request.thresholdAfter origin.threshold

namespace Context

variable
    {winner : Initialization}
    {origin before context : Context}

theorem initializedBy_contextAfter
    (fresh : origin.initialized = false)
    (request : Initialization) :
    (request.contextAfter origin).InitializedBy request origin := by
  rw [Initialization.contextAfter, Initialization.apply_of_uninitialized fresh,
    Initialization.stash_eq]
  exact ⟨rfl, rfl, rfl⟩

/-- A later initialization leaves alone what the first one has done. -/
theorem InitializedBy.contextAfter
    (already : before.InitializedBy winner origin)
    (request : Initialization) :
    (request.contextAfter before).InitializedBy winner origin := by
  rw [Initialization.contextAfter,
    Initialization.apply_of_initialized already.initialized]
  exact ⟨already.initialized, already.tag_eq, already.threshold_eq⟩

theorem InitializedBy.of_follows
    (already : before.InitializedBy winner origin)
    (follows : before.Follows True context) :
    context.InitializedBy winner origin :=
  ⟨follows.initialized_eq.trans already.initialized,
    follows.tag_eq.trans already.tag_eq,
    (follows.threshold_eq trivial).trans already.threshold_eq⟩

end Context

namespace Concurrency

variable
    {winner request : Initialization}
    {origin before context : Context}
    {activity : Activity}

/-- After any initializations, name and threshold are those of the first. -/
theorem initializedBy_contextAfterAll
    (fresh : origin.initialized = false)
    (winner : Admission)
    (rest : List Admission) :
    (contextAfterAll origin (winner :: rest)).InitializedBy winner.request origin := by
  induction rest using List.reverseRecOn with
  | nil =>
      exact Context.initializedBy_contextAfter fresh winner.request
  | append_singleton earlier last induction =>
      rw [← List.cons_append, contextAfterAll_concat]
      exact induction.contextAfter last.request

namespace Critical

/-- In the middle of a later initialization, everything is as the first has left it. -/
theorem initializedBy
    (critical : Critical True before request activity context)
    (already : before.InitializedBy winner origin) :
    context.InitializedBy winner origin := by
  cases critical with
  | installing follows =>
      exact already.of_follows follows
  | claiming follows =>
      have paired : (request.installPair before).InitializedBy winner origin :=
        ⟨already.initialized, already.tag_eq, already.threshold_eq⟩
      exact paired.of_follows follows
  | stashing fresh follows =>
      rw [already.initialized] at fresh
      cases fresh
  | leaving follows =>
      exact (already.contextAfter request).of_follows follows

/-- What an initialization is going to report was decided when it took the lock. -/
theorem problem_eq
    {kept : Prop}
    {problem : Option TagsError}
    (critical : Critical kept before request activity context)
    (leaving : activity = .leaving problem) :
    problem = (request.apply before).1 := by
  cases critical with
  | leaving follows =>
      exact (Activity.leaving.inj leaving).symm
  | _ =>
      cases leaving

/-- Once its pair is installed, it stays so until the lock is released. -/
theorem pair_eq
    {kept : Prop}
    (critical : Critical kept before request activity context)
    (installed : activity ≠ .installing request) :
    context.logger = request.logger ∧ context.aborter = request.aborter := by
  cases critical with
  | installing follows =>
      exact absurd rfl installed
  | claiming follows =>
      exact ⟨follows.logger_eq, follows.aborter_eq⟩
  | stashing _ follows =>
      exact ⟨follows.logger_eq, follows.aborter_eq⟩
  | leaving follows =>
      exact
        ⟨follows.logger_eq.trans (request.contextAfter_logger before),
          follows.aborter_eq.trans (request.contextAfter_aborter before)⟩

end Critical

namespace Machine

variable
    {host : Host}
    {calls : List (List Call)}
    {history rest : List Admission}
    {machine : Machine}
    {kept : Prop}

theorem Tracks.untouched
    (tracks : Tracks True origin [] machine) :
    machine.host.context = origin := by
  rcases tracks.quiet_or_critical with follows | ⟨_, _, earlier, _, _, _, history_eq, _⟩
  · exact follows.eq
  · exact absurd history_eq.symm (List.append_ne_nil_of_right_ne_nil earlier nofun)

/-- What a thread is in the middle of, it is in the middle of for its current call. -/
theorem activityAt_of_last
    {admission : Admission}
    {thread : Thread}
    (reached : Reached (start host calls) history machine)
    (member : admission ∈ history)
    (found : machine.threads[admission.thread]? = some thread)
    (last : admission.call = thread.begun - 1) :
    thread.activityAt admission.call = thread.activity := by
  have begun := reached.begun_of_found member found
  exact thread.activityAt_of_current (by omega)

theorem Reached.settled
    {winner admission : Admission}
    {thread : Thread}
    (sparing : SparingCalls True calls)
    (fresh : host.context.initialized = false)
    (reached : Reached (start host calls) (winner :: rest) machine)
    (member : admission ∈ winner :: rest)
    (found : machine.threads[admission.thread]? = some thread)
    (released : (thread.activityAt admission.call).initializes = false) :
    machine.host.context.InitializedBy winner.request host.context := by
  rcases (reached.tracks sparing).quiet_or_critical with
    follows | ⟨index, busy, earlier, request, busy_found, initializing, history_eq,
      critical⟩
  · exact (initializedBy_contextAfterAll fresh winner rest).of_follows follows
  · cases earlier with
    | nil =>
        -- The first is still under the lock, so none of the calls can be over.
        cases history_eq
        cases List.mem_singleton.mp member
        rw [busy_found] at found
        cases found
        have current := activityAt_of_last reached member busy_found rfl
        rw [current, initializing] at released
        cases released
    | cons first earlier =>
        cases history_eq
        exact critical.initializedBy
          (initializedBy_contextAfterAll fresh winner earlier)

theorem Tracks.paired
    {earlier : List Admission}
    {last : Admission}
    (tracks : Tracks kept origin (earlier ++ [last]) machine)
    (installed :
      ∀ thread ∈ machine.threads, thread.activity ≠ .installing last.request) :
    machine.host.context.logger = last.request.logger ∧
      machine.host.context.aborter = last.request.aborter := by
  rcases tracks.quiet_or_critical with
    follows | ⟨index, thread, others, request, found, _, history_eq, critical⟩
  · rw [contextAfterAll_concat] at follows
    exact
      ⟨follows.logger_eq.trans (last.request.contextAfter_logger _),
        follows.aborter_eq.trans (last.request.contextAfter_aborter _)⟩
  · rcases List.append_inj' history_eq rfl with ⟨_, same⟩
    cases same
    exact critical.pair_eq (installed thread (List.mem_of_getElem? found))

theorem Reached.reported
    {winner : Admission}
    {thread : Thread}
    (sparing : SparingCalls True calls)
    (fresh : host.context.initialized = false)
    (reached : Reached (start host calls) (winner :: rest) machine)
    (found : machine.threads[winner.thread]? = some thread) :
    Received (Installed host.context (winner :: rest))
      (ReliableLoggers host.context calls ∧ thread.activityAt winner.call = .idle)
      (winner.request.problem?.map (Delivery.ofReport host.reportSite))
      (abortingOf machine.log winner.thread winner.call) := by
  have received :=
    @Reached.received_of_admission True host (winner :: rest) rest calls machine
      thread [] winner sparing reached rfl found
  have applied := @Initialization.apply_of_uninitialized winner.request _ fresh
  rw [contextAfterAll, List.foldl_nil, applied] at received
  exact received

theorem Reached.silent
    {winner admission : Admission}
    (sparing : SparingCalls True calls)
    (fresh : host.context.initialized = false)
    (reached : Reached (start host calls) (winner :: rest) machine)
    (member : admission ∈ rest) :
    abortingOf machine.log admission.thread admission.call = [] ∧
      ∀ (thread : Thread) (problem : TagsError),
        machine.threads[admission.thread]? = some thread →
          thread.activityAt admission.call ≠ .leaving (some problem) := by
  rcases List.append_of_mem member with ⟨earlier, later, rfl⟩
  have already := initializedBy_contextAfterAll fresh winner earlier
  have applied :=
    @Initialization.apply_of_initialized admission.request _ already.initialized
  have in_history : admission ∈ winner :: (earlier ++ admission :: later) :=
    List.mem_cons_of_mem winner member
  rcases reached.begun_of_mem in_history with ⟨thread, found, _⟩
  constructor
  · have received :=
      @Reached.received_of_admission True host _ later calls machine thread
        (winner :: earlier) admission sparing reached rfl found
    rw [applied] at received
    exact received.eq_nil
  · intro same problem same_found leaving
    unfold Thread.activityAt at leaving
    split at leaving
    · next current =>
        rcases (reached.tracks sparing).critical admission.thread same same_found
          (by rw [leaving]; rfl) with ⟨others, request, history_eq, critical⟩
        have place_eq :
            Admission.place ⟨admission.thread, same.begun - 1, request⟩ =
              admission.place := by
          rw [← current]
          rfl
        have in_order :
            winner :: (earlier ++ admission :: later) =
              (winner :: earlier) ++ admission :: later := rfl
        rcases reached.eq_of_place in_order history_eq place_eq with ⟨rfl, same_eq⟩
        have request_eq : request = admission.request := congrArg Admission.request same_eq
        have problem_eq := critical.problem_eq leaving
        rw [request_eq, applied] at problem_eq
        cases problem_eq
    · cases leaving

/-- When all threads are done, every call has taken the lock and released it. -/
theorem Reached.final
    (sparing : SparingCalls True calls)
    (reached : Reached (start host calls) history machine)
    (done : machine.isDone = true) :
    machine.host.context = contextAfterAll host.context history ∧
      ∀ (index : Nat) (own : List Call), calls[index]? = some own →
        (history.filter fun admission => admission.thread = index) =
          admissionsOf index own own.length := by
  have idle :
      ∀ thread ∈ machine.threads, thread.activity = .idle ∧ thread.calls = [] := by
    intro thread member
    have thread_done := List.all_eq_true.mp done thread member
    unfold Thread.isDone at thread_done
    split at thread_done
    · next is_idle no_calls =>
        exact ⟨is_idle, no_calls⟩
    · cases thread_done
  constructor
  · apply Context.Follows.eq
    apply (reached.tracks sparing).quiet
    intro index thread member
    rw [(idle thread (List.mem_of_getElem? member)).1]
    rfl
  · intro index own found
    have inside : index < machine.threads.length := by
      rw [reached.orderly.length_eq]
      exact (List.getElem?_eq_some_iff.mp found).1
    have member := List.getElem?_eq_getElem inside
    have owns := reached.orderly.owns_of_found member found
    have none_left := owns.calls_eq
    rw [(idle _ (List.mem_of_getElem? member)).2] at none_left
    have all_begun := List.drop_eq_nil_iff.mp none_left.symm
    rw [reached.recorded index _ own member found,
      Nat.le_antisymm owns.begun_le all_begun]

end Machine

end Concurrency

end GatedLog
