import GatedLog.Proofs.Concurrency.Claim
import GatedLog.Proofs.Concurrency.Critical
import GatedLog.Proofs.Concurrency.OpenScopes

/-!
# Every write of the threshold is accounted for

For every call that was begun it is known what it has written: a call that sets
the threshold or opens a scope what it was given, a call that closes a scope what
the opening of that scope has found, the first initialization the threshold of
its tags, and any other call nothing.  One turn of a thread keeps the account of
that thread and leaves those of the others alone.
-/

namespace GatedLog.Concurrency

/-- What a call that was begun has written, which may be nothing. -/
inductive Justified
    (history : List Admission)
    (machine : Machine)
    (index : Nat)
    (own : List Call)
    (position : Nat)
    (activity : Activity) : Call → List Severity → Prop where
  | sets {severity : Severity} :
      Justified history machine index own position activity
        (.setThreshold severity) [severity]
  | opens {id : String} {severity : Severity} :
      Justified history machine index own position activity
        (.openScope id severity) [severity]
  /-- A scope is closed: what its opening has found is installed again. -/
  | closes
      {id : String}
      {opened : Nat}
      {opening : Write}
      (opener : opener? own position id = some opened)
      (opening_eq : machine.writesOf index opened = [opening]) :
      Justified history machine index own position activity
        (.closeScope id) [opening.previous]
  | closesNothing
      {id : String}
      (unknown : opener? own position id = none) :
      Justified history machine index own position activity (.closeScope id) []
  /-- The first initialization has stored the threshold of its tags, if it has one. -/
  | stores
      {request : Initialization}
      (leads : Leads history index position)
      (past : activity.awaitsStash = false) :
      Justified history machine index own position activity
        (.setUp request) request.installs?.toList
  /-- An initialization is under way. -/
  | pends
      {request : Initialization}
      (awaits : activity.awaitsStash = true) :
      Justified history machine index own position activity (.setUp request) []
  /-- An initialization is not the first. -/
  | repeats
      {request : Initialization}
      (behind : ¬ Leads history index position) :
      Justified history machine index own position activity (.setUp request) []
  /-- Emissions, loggers and aborters have nothing to do with the threshold. -/
  | spares
      {call : Call}
      (spares : call.sparesThreshold = true)
      (unasked : call.request? = none) :
      Justified history machine index own position activity call []

/-- An open scope keeps what the call that opened it has found. -/
structure Keeps
    (machine : Machine)
    (index : Nat)
    (scope : String × Severity)
    (opened : String × Nat) : Prop where
  name_eq : scope.1 = opened.1
  opening :
    ∃ write, machine.writesOf index opened.2 = [write] ∧ write.previous = scope.2

/-- What a thread has written, and what its open scopes keep. -/
structure Accounts
    (history : List Admission)
    (machine : Machine)
    (index : Nat)
    (own : List Call)
    (thread : Thread) : Prop where
  kept :
    List.Forall₂ (Keeps machine index) thread.scopes (openScopes own thread.begun)
  justified :
    ∀ (position : Nat) (call : Call),
      own[position]? = some call →
        position < thread.begun →
          Justified history machine index own position
            (thread.activityAt position) call
            ((machine.writesOf index position).map Write.current)

variable
    {history later : List Admission}
    {machine after : Machine}
    {index other position opened : Nat}
    {own : List Call}
    {activity next_activity : Activity}
    {call : Call}
    {request : Initialization}
    {written : List Severity}
    {thread next : Thread}
    {installed : Option Severity}

/-- What was written stays so while others write, and take the lock later. -/
theorem Justified.of_next
    (justified :
      Justified history machine index own position activity call written)
    (same :
      ∀ earlier < position,
        after.writesOf index earlier = machine.writesOf index earlier)
    (leads_iff : Leads later index position ↔ Leads history index position)
    (phase :
      next_activity.awaitsStash = activity.awaitsStash ∨
        ¬ Leads history index position) :
    Justified later after index own position next_activity call written := by
  cases justified with
  | sets =>
      exact .sets
  | opens =>
      exact .opens
  | closes opener opening_eq =>
      exact .closes opener ((same _ (opener?_lt opener)).trans opening_eq)
  | closesNothing unknown =>
      exact .closesNothing unknown
  | stores leads past =>
      rcases phase with same_phase | behind
      · exact .stores (leads_iff.mpr leads) (same_phase.trans past)
      · exact absurd leads behind
  | pends awaits =>
      rcases phase with same_phase | behind
      · exact .pends (same_phase.trans awaits)
      · exact .repeats fun leads => behind (leads_iff.mp leads)
  | repeats behind =>
      exact .repeats fun leads => behind (leads_iff.mp leads)
  | spares spares unasked =>
      exact .spares spares unasked

theorem Justified.eq_of_opens
    {id : String}
    {severity : Severity}
    (justified :
      Justified history machine index own position activity
        (.openScope id severity) written) :
    written = [severity] := by
  cases justified with
  | opens =>
      rfl
  | spares spares unasked =>
      cases spares

theorem Justified.exists_of_closes
    {id : String}
    (justified :
      Justified history machine index own position activity (.closeScope id) written)
    (opener : opener? own position id = some opened) :
    ∃ opening,
      machine.writesOf index opened = [opening] ∧ written = [opening.previous] := by
  cases justified with
  | closes same_opener opening_eq =>
      rw [opener] at same_opener
      cases same_opener
      exact ⟨_, opening_eq, rfl⟩
  | closesNothing unknown =>
      rw [opener] at unknown
      cases unknown
  | spares spares unasked =>
      cases spares

/-- An initialization under way has written nothing yet. -/
theorem Justified.eq_nil_of_awaits
    (justified :
      Justified history machine index own position activity (.setUp request) written)
    (awaits : activity.awaitsStash = true) :
    written = [] := by
  cases justified with
  | stores leads past =>
      rw [awaits] at past
      cases past
  | _ =>
      rfl

theorem Keeps.of_same
    {scope : String × Severity}
    {opened : String × Nat}
    (keeps : Keeps machine index scope opened)
    (same :
      machine.writesOf index opened.2 ≠ [] →
        after.writesOf index opened.2 = machine.writesOf index opened.2) :
    Keeps after index scope opened := by
  rcases keeps with ⟨name_eq, write, writes_eq, previous_eq⟩
  refine ⟨name_eq, write, ?_, previous_eq⟩
  rw [same (writes_eq ▸ List.cons_ne_nil write []), writes_eq]

namespace Accounts

/-- Other threads write, and take the lock. -/
theorem of_elsewhere
    (accounts : Accounts history machine index own thread)
    (same :
      ∀ earlier, after.writesOf index earlier = machine.writesOf index earlier)
    (leads_iff :
      ∀ earlier < thread.begun,
        Leads later index earlier ↔ Leads history index earlier) :
    Accounts later after index own thread := by
  refine ⟨?_, ?_⟩
  · exact accounts.kept.imp fun _ _ keeps => keeps.of_same fun _ => same _
  · intro position call found begun
    rw [same position]
    exact
      (accounts.justified position call found begun).of_next
        (fun earlier _ => same earlier) (leads_iff position begun) (Or.inl rfl)

/-- A thread begins a call, which is accounted for at once. -/
theorem of_begun
    (accounts : Accounts history machine index own thread)
    (idle : thread.activity = .idle)
    (found : own[thread.begun]? = some call)
    (begun_eq : next.begun = thread.begun + 1)
    (scopes :
      List.Forall₂ (Keeps after index) next.scopes
        (openScopes own next.begun))
    (same :
      ∀ earlier < thread.begun,
        after.writesOf index earlier = machine.writesOf index earlier)
    (leads_iff :
      ∀ earlier < thread.begun,
        Leads later index earlier ↔ Leads history index earlier)
    (current :
      Justified later after index own thread.begun next.activity call
        ((after.writesOf index thread.begun).map Write.current)) :
    Accounts later after index own next := by
  refine ⟨scopes, ?_⟩
  intro position other other_found begun
  rw [begun_eq] at begun
  rcases Nat.lt_succ_iff_lt_or_eq.mp begun with earlier | rfl
  · have ended : next.activityAt position = .idle := if_neg (by omega)
    have before : thread.activityAt position = .idle := by
      rw [Thread.activityAt, idle, ite_self]
    have justified := accounts.justified position other other_found earlier
    rw [ended, same position earlier]
    rw [before] at justified
    exact
      justified.of_next (fun less before_it => same less (Nat.lt_trans before_it earlier))
        (leads_iff position earlier) (Or.inl rfl)
  · rw [next.activityAt_of_current begun_eq.symm]
    rw [found] at other_found
    cases other_found
    exact current

/-- A thread goes on with its call, and may write for it. -/
theorem of_current
    (accounts : Accounts history machine index own thread)
    (begun_eq : next.begun = thread.begun)
    (scopes :
      List.Forall₂ (Keeps after index) next.scopes
        (openScopes own thread.begun))
    (same :
      ∀ earlier, earlier + 1 < thread.begun →
        after.writesOf index earlier = machine.writesOf index earlier)
    (current :
      ∀ (position : Nat) (call : Call),
        position + 1 = thread.begun →
          own[position]? = some call →
            Justified history machine index own position thread.activity call
              ((machine.writesOf index position).map Write.current) →
            Justified history after index own position next.activity call
              ((after.writesOf index position).map Write.current)) :
    Accounts history after index own next := by
  refine ⟨begun_eq ▸ scopes, ?_⟩
  intro position call found begun
  rw [begun_eq] at begun
  have justified := accounts.justified position call found begun
  by_cases latest : position + 1 = thread.begun
  · rw [next.activityAt_of_current (latest.trans begun_eq.symm)]
    rw [thread.activityAt_of_current latest] at justified
    exact current position call latest found justified
  · have ended : next.activityAt position = .idle := if_neg (by omega)
    have before : thread.activityAt position = .idle := if_neg latest
    rw [ended, same position (by omega)]
    rw [before] at justified
    exact
      justified.of_next (fun earlier less => same earlier (by omega)) Iff.rfl
        (Or.inl rfl)

/-- A call that had written nothing did not write what open scopes keep. -/
theorem kept_of_wrote
    (accounts : Accounts history machine index own thread)
    (unwritten : machine.writesOf index position = [])
    (wrote : Machine.Wrote machine after index position installed) :
    List.Forall₂ (Keeps after index) thread.scopes (openScopes own thread.begun) := by
  refine accounts.kept.imp fun scope opened keeps => keeps.of_same fun written => ?_
  apply wrote.writesOf_elsewhere
  rintro _ rfl
  exact written unwritten

end Accounts

namespace Machine

variable
    {calls : List (List Call)}
    {host : Host}

/-- Calls that were not begun have written nothing. -/
theorem Orderly.writesOf_eq_nil
    (orderly : Orderly calls machine)
    (member : machine.threads[index]? = some thread)
    (unbegun : thread.begun ≤ position) :
    machine.writesOf index position = [] := by
  apply List.filter_eq_nil_iff.mpr
  intro write write_member ours
  have place_eq := of_decide_eq_true ours
  rcases exists_entry_of_mem_writes write_member with
    ⟨entry, entry_member, thread_eq, call_eq⟩
  rcases orderly.bounded entry entry_member with ⟨owner, found, begun⟩
  rw [thread_eq, place_eq.1, member] at found
  cases found
  omega

/-- The first step of a call is all that it writes, unless it initializes. -/
theorem justified_of_begins
    (accounts : Accounts history machine index own thread)
    (unwritten : machine.writesOf index thread.begun = [])
    (begins : Begins machine index thread call next after)
    (unasked : call.request? = none) :
    Justified history after index own thread.begun next.activity call
      ((after.writesOf index thread.begun).map Write.current) := by
  have wrote := begins.wrote
  rw [wrote.map_current_eq, unwritten, List.map_nil, List.nil_append]
  cases call with
  | setThreshold severity =>
      exact .sets
  | openScope id severity =>
      exact .opens
  | closeScope id =>
      have named :
          ∀ scope opened, Keeps machine index scope opened → scope.1 = opened.1 :=
        fun _ _ keeps => keeps.name_eq
      rcases lookup_forall₂ accounts.kept named id with
        ⟨unknown, unopened⟩ | ⟨previous, opened, known, opener, keeps⟩
      · rw [Call.installs?, unknown]
        exact .closesNothing unopened
      · rcases keeps.opening with ⟨opening, opening_eq, found_eq⟩
        have previous_eq : previous = opening.previous := found_eq.symm
        have apart : thread.begun ≠ opened :=
          Nat.ne_of_gt (opener?_lt opener)
        have opening_after : after.writesOf index opened = [opening] := by
          rw [wrote.writesOf_elsewhere fun _ => apart]
          exact opening_eq
        rw [Call.installs?, known, previous_eq]
        exact .closes opener opening_after
  | setUp request =>
      cases unasked
  | _ =>
      exact .spares rfl rfl

/-- A thread that begins a call, which is no initialization. -/
theorem accounts_of_begins
    (accounts : Accounts history machine index own thread)
    (unwritten : machine.writesOf index thread.begun = [])
    (idle : thread.activity = .idle)
    (found : own[thread.begun]? = some call)
    (begins : Begins machine index thread call next after)
    (unasked : call.request? = none) :
    Accounts history after index own next := by
  have wrote := begins.wrote
  have kept := accounts.kept_of_wrote unwritten wrote
  have same :
      ∀ earlier < thread.begun,
        after.writesOf index earlier = machine.writesOf index earlier := by
    intro earlier less
    exact wrote.writesOf_elsewhere fun _ => Nat.ne_of_gt less
  refine
    accounts.of_begun idle found begins.begun_eq ?_ same (fun _ _ => Iff.rfl)
      (justified_of_begins accounts unwritten begins unasked)
  rw [begins.begun_eq, openScopes_succ found, begins.scopes_eq]
  refine forall₂_keep kept (fun _ _ keeps => keeps.name_eq) ?_
  rintro id severity rfl
  refine
    ⟨rfl, ⟨index, thread.begun, machine.host.context.minimum, severity⟩, ?_, rfl⟩
  rw [wrote.writesOf_eq, unwritten]
  rfl

/-- The first initialization stores the threshold that its tags ask for. -/
theorem accounts_of_stashes
    (accounts : Accounts history machine index own thread)
    (owns : Owns own thread)
    (stashing : thread.activity = .stashing request)
    (head_eq : history.head? = some ⟨index, thread.begun - 1, request⟩)
    (found : own[thread.begun - 1]? = some (.setUp request))
    (wrote : Wrote machine after index (thread.begun - 1) request.installs?) :
    Accounts history after index own
      { thread with activity := .leaving request.problem? } := by
  have begun : 0 < thread.begun := by
    apply owns.busy
    rw [stashing]
    exact Activity.noConfusion
  have leads : Leads history index (thread.begun - 1) := by
    rw [Leads, head_eq]
    rfl
  have unwritten : machine.writesOf index (thread.begun - 1) = [] := by
    have justified := accounts.justified _ _ found (by omega)
    rw [thread.activityAt_of_current (by omega), stashing] at justified
    exact List.map_eq_nil_iff.mp (justified.eq_nil_of_awaits rfl)
  refine accounts.of_current rfl (accounts.kept_of_wrote unwritten wrote) ?_ ?_
  · intro earlier less
    exact wrote.writesOf_elsewhere fun _ => by omega
  · intro position call current call_found _
    have position_eq : position = thread.begun - 1 := by omega
    subst position_eq
    rw [found] at call_found
    cases call_found
    rw [wrote.map_current_eq, unwritten, List.map_nil, List.nil_append]
    exact .stores leads rfl

/-- The writes of every call are accounted for, and what every open scope keeps. -/
def Balanced
    (calls : List (List Call))
    (history : List Admission)
    (machine : Machine) : Prop :=
  ∀ (index : Nat) (thread : Thread) (own : List Call),
    machine.threads[index]? = some thread →
      calls[index]? = some own →
        Accounts history machine index own thread

/-- One thread moves on, and accounts for what it has written. -/
theorem Balanced.of_moved
    (balanced : Balanced calls history machine)
    (threads_eq : after.threads = machine.threads.set index next)
    (wrote : Wrote machine after index position installed)
    (leads_iff :
      ∀ other earlier, other ≠ index →
        (Leads later other earlier ↔ Leads history other earlier))
    (moved :
      ∀ own, calls[index]? = some own → Accounts later after index own next) :
    Balanced calls later after := by
  intro other otherThread own member found
  rw [threads_eq] at member
  rcases getElem?_set_cases member with ⟨rfl, rfl⟩ | ⟨different, unmoved⟩
  · exact moved own found
  · refine
      (balanced other otherThread own unmoved found).of_elsewhere ?_
        fun earlier _ => leads_iff other earlier different
    intro earlier
    exact wrote.writesOf_elsewhere fun same => absurd same.symm different

/-- An initialization that takes the lock has written nothing yet. -/
theorem Balanced.of_admitted
    {rest : List Call}
    (balanced : Balanced calls history machine)
    (orderly : Orderly calls machine)
    (member : machine.threads[index]? = some thread)
    (idle : thread.activity = .idle)
    (following : thread.calls = .setUp request :: rest) :
    Balanced calls (history ++ [⟨index, thread.begun, request⟩])
      ((machine.setHolder (some index)).setThread index
        ⟨.installing request, rest, thread.begun + 1, thread.scopes⟩) := by
  have unwritten := orderly.writesOf_eq_nil member (Nat.le_refl thread.begun)
  refine
    @Balanced.of_moved history _ machine _ index thread.begun _ none calls balanced
      rfl (wrote_none rfl rfl) ?_ ?_
  · intro other earlier different
    apply leads_concat_iff
    intro place_eq
    exact different (congrArg Prod.fst place_eq).symm
  · intro own found
    have accounts := balanced index thread own member found
    have next := (orderly.owns_of_found member found).getElem?_begun following
    refine accounts.of_begun idle next rfl ?_ (fun _ _ => rfl) ?_ ?_
    · rw [openScopes_succ next]
      exact accounts.kept.imp fun _ _ keeps => keeps.of_same fun _ => rfl
    · intro earlier less
      apply leads_concat_iff
      intro place_eq
      exact Nat.ne_of_gt less (congrArg Prod.snd place_eq)
    · have nothing :
          (writesOf
              ((machine.setHolder (some index)).setThread index
                ⟨.installing request, rest, thread.begun + 1, thread.scopes⟩)
              index thread.begun).map Write.current = [] :=
        congrArg (List.map Write.current) unwritten
      rw [nothing]
      exact .pends rfl

/-- Whatever a turn does to the threshold is accounted for by its thread. -/
theorem Balanced.of_bearing
    (balanced : Balanced calls history machine)
    (reached : Reached (start host calls) history machine)
    (claimed : Claimed history machine)
    (member : machine.threads[index]? = some thread)
    (turned_down : machine.admits? index thread = none)
    (bearing : Bearing machine index thread after) :
    Balanced calls history after := by
  cases bearing with
  | pauses same =>
      rw [same]
      exact balanced
  | begins idle free begins =>
      refine
        balanced.of_moved begins.threads_eq begins.wrote (fun _ _ _ => Iff.rfl) ?_
      intro own found
      have owns := reached.orderly.owns_of_found member found
      have unwritten :=
        reached.orderly.writesOf_eq_nil member (Nat.le_refl thread.begun)
      exact
        accounts_of_begins (balanced index thread own member found) unwritten idle
          (owns.getElem?_begun begins.calls_eq) begins
          (request?_of_not_admits turned_down idle begins.calls_eq free)
  | @stashes request threads_eq stashing wrote =>
      have bids := claimed.bids index thread member
      rw [stashing] at bids
      have head_eq := (head_of_stashing bids).2
      refine balanced.of_moved threads_eq wrote (fun _ _ _ => Iff.rfl) ?_
      intro own found
      rcases reached.call_of_mem (List.mem_of_head? head_eq) with
        ⟨same, same_found, asked⟩
      rw [found] at same_found
      cases same_found
      exact
        accounts_of_stashes (balanced index thread own member found)
          (reached.orderly.owns_of_found member found) stashing head_eq asked wrote
  | @goesOn next threads_eq busy begun_eq scopes_eq phase wrote =>
      refine balanced.of_moved threads_eq wrote (fun _ _ _ => Iff.rfl) ?_
      intro own found
      have accounts := balanced index thread own member found
      have same := wrote.writesOf_of_none index
      refine accounts.of_current begun_eq ?_ (fun earlier _ => same earlier) ?_
      · rw [scopes_eq]
        exact accounts.kept.imp fun _ _ keeps => keeps.of_same fun _ => same _
      · intro position call current call_found justified
        rw [same position]
        refine justified.of_next (fun earlier _ => same earlier) Iff.rfl ?_
        -- Who finds the mark goes past the point of storing, but is not the first.
        refine phase.imp id ?_
        rintro ⟨⟨request, claiming⟩, marked⟩
        have bids := claimed.bids index thread member
        rw [claiming, marked] at bids
        have position_eq : position = thread.begun - 1 := by omega
        rw [position_eq]
        exact behind_of_claiming bids

/-- The writes of all calls are accounted for after every schedule. -/
theorem Reached.balanced
    (untouched : host.context.initialized = false)
    (reached : Reached (start host calls) history machine) :
    Balanced calls history machine := by
  refine reached.induction ?_ ?_ ?_
  · intro index thread own member found
    rw [start, List.getElem?_map, found] at member
    cases member
    exact ⟨.nil, fun _ _ _ begun => absurd begun (Nat.not_lt_zero _)⟩
  · intro history machine index thread request rest reached balanced _ member idle
      following _
    exact balanced.of_admitted reached.orderly member idle following
  · intro history machine after index thread reached balanced _ member turned_down turn
    exact
      balanced.of_bearing reached (reached.claimed untouched) member turned_down
        (bearing_of_turn member turn)

end Machine

end GatedLog.Concurrency
