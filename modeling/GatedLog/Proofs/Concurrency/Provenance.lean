import GatedLog.Proofs.Concurrency.Accounts
import GatedLog.Proofs.Host

/-!
# Where the threshold comes from

Any number of threads work with a new context.  The threshold is that of the
latest write, and every write is accounted for by a call: the threshold was set,
a scope was opened or closed, or the first initialization had good tags.  A scope
that is closed writes what it found when it was opened, in whatever order scopes
are closed.  Nothing else writes the threshold, whatever becomes of it.
-/

namespace GatedLog

/-- A process after these writes of its threshold, made one after the other. -/
def Host.afterWrites (host : Host) (writes : List Concurrency.Write) : Host :=
  writes.foldl (fun host write => (Host.setThreshold write.current host).state) host

theorem Host.minimum_afterWrites
    {host : Host}
    (untouched : host.context.minimum = .info)
    (writes : List Concurrency.Write) :
    (host.afterWrites writes).context.minimum = Concurrency.latest writes := by
  induction writes using List.reverseRecOn with
  | nil =>
      exact untouched
  | append_singleton earlier write induction =>
      rw [afterWrites, List.foldl_append, Concurrency.latest_concat]
      exact Context.minimum_withMinimum _ _

namespace Concurrency

/-- Where the threshold comes from, at any moment of any schedule. -/
structure Provenance
    (host : Host)
    (calls : List (List Call))
    (history : List Admission)
    (machine : Machine) : Prop where
  /-- The threshold is that of the latest write, and `info` if there was none. -/
  minimum_eq : machine.host.context.minimum = latest machine.writes
  /-- Its byte is that of a severity, so none has to be put in its place. -/
  decoded :
    Severity.ofRank? machine.host.context.threshold.byte.toNat =
      some (latest machine.writes)
  /-- Writes come one at a time, and stay. -/
  stepwise :
    ∀ index, ∃ added : Option Write,
      (machine.step index).writes = machine.writes ++ added.toList
  /-- Every write has found what the one before it left. -/
  chained : Chained machine.writes
  /-- What it has found is what setting the threshold returns to whoever does it. -/
  returned :
    ∀ (earlier : List Write) (write : Write) (later : List Write),
      machine.writes = earlier ++ write :: later →
        (Host.setThreshold write.current (host.afterWrites earlier)).exit =
          .ok write.previous
  /-- Every write is that of a call which was begun. -/
  owned :
    ∀ write ∈ machine.writes,
      ∃ (thread : Thread) (own : List Call) (call : Call),
        machine.threads[write.thread]? = some thread ∧
          calls[write.thread]? = some own ∧
          own[write.call]? = some call ∧
          write.call < thread.begun
  /-- Every call that was begun has written what is due, and no more than that. -/
  justified :
    ∀ (index : Nat) (thread : Thread) (own : List Call) (position : Nat) (call : Call),
      machine.threads[index]? = some thread →
        calls[index]? = some own →
          own[position]? = some call →
            position < thread.begun →
              Justified history machine index own position
                (thread.activityAt position) call
                ((machine.writesOf index position).map Write.current)
  /-- Every open scope keeps what the call that opened it has found. -/
  kept :
    ∀ (index : Nat) (thread : Thread) (own : List Call),
      machine.threads[index]? = some thread →
        calls[index]? = some own →
          List.Forall₂ (Keeps machine index) thread.scopes
            (openScopes own thread.begun)
  /-- A scope that is closed writes what it found, whatever happened in between. -/
  restored :
    ∀ (index : Nat) (thread : Thread) (own : List Call) (opened position : Nat)
        (id : String) (severity : Severity),
      machine.threads[index]? = some thread →
        calls[index]? = some own →
          own[opened]? = some (.openScope id severity) →
            own[position]? = some (.closeScope id) →
              opened < position →
                position < thread.begun →
                  (∀ (between : Nat) (call : Call),
                    opened < between → between < position →
                      own[between]? = some call → call.concerns id = false) →
                    ∃ opening closing,
                      machine.writesOf index opened = [opening] ∧
                        opening.current = severity ∧
                        machine.writesOf index position = [closing] ∧
                        closing.current = opening.previous

namespace Machine

variable
    {host : Host}
    {calls : List (List Call)}
    {history : List Admission}
    {machine : Machine}
    {index opened position : Nat}
    {own : List Call}

/-- A step adds one write at most. -/
theorem writes_step (machine : Machine) (index : Nat) :
    ∃ added : Option Write,
      (machine.step index).writes = machine.writes ++ added.toList := by
  unfold step
  split
  · exact ⟨none, (List.append_nil _).symm⟩
  · split
    · exact ⟨none, (List.append_nil _).symm⟩
    · next thread member =>
        have bearing := bearing_of_turn member (machine.advance_turn index thread)
        rcases bearing.wrote with ⟨position, installed, wrote⟩
        exact ⟨_, wrote.writes_eq⟩

theorem Orderly.owned
    (orderly : Orderly calls machine)
    {write : Write}
    (member : write ∈ machine.writes) :
    ∃ (thread : Thread) (own : List Call) (call : Call),
      machine.threads[write.thread]? = some thread ∧
        calls[write.thread]? = some own ∧
        own[write.call]? = some call ∧
        write.call < thread.begun := by
  rcases exists_entry_of_mem_writes member with
    ⟨entry, entry_member, thread_eq, call_eq⟩
  rcases orderly.bounded entry entry_member with ⟨thread, found, begun⟩
  rw [thread_eq] at found
  rw [call_eq] at begun
  rcases orderly.owns write.thread thread found with ⟨own, own_found, owns⟩
  have inside := Nat.lt_of_lt_of_le begun owns.begun_le
  exact
    ⟨thread, own, own[write.call], found, own_found,
      List.getElem?_eq_getElem inside, begun⟩

/-- What a scope found is written again by the call that closes it. -/
theorem Balanced.restored
    {thread : Thread}
    {id : String}
    {severity : Severity}
    (balanced : Balanced calls history machine)
    (member : machine.threads[index]? = some thread)
    (found : calls[index]? = some own)
    (opens : own[opened]? = some (.openScope id severity))
    (closes : own[position]? = some (.closeScope id))
    (opener : opener? own position id = some opened)
    (begun : position < thread.begun) :
    ∃ opening closing,
      machine.writesOf index opened = [opening] ∧
        opening.current = severity ∧
        machine.writesOf index position = [closing] ∧
        closing.current = opening.previous := by
  have justified := (balanced index thread own member found).justified
  have opened_begun := Nat.lt_trans (opener?_lt opener) begun
  have opening_eq := (justified opened _ opens opened_begun).eq_of_opens
  rcases (justified position _ closes begun).exists_of_closes opener with
    ⟨opening, only_opening, closing_eq⟩
  rw [only_opening] at opening_eq
  rcases List.map_eq_singleton_iff.mp closing_eq with
    ⟨closing, only_closing, current_eq⟩
  exact
    ⟨opening, closing, only_opening, List.singleton_inj.mp opening_eq, only_closing,
      current_eq⟩

/--
Whatever threads do with a new context, its threshold is that of the latest
write, and every write is accounted for.
-/
theorem provenance_run
    (host : Host)
    (logger : Logger)
    (aborter : Aborter)
    (tag : String)
    (calls : List (List Call))
    (schedule : List Nat) :
    Provenance (host.withContext (.new logger aborter tag)) calls
      ((start (host.withContext (.new logger aborter tag)) calls).admissions schedule)
      ((start (host.withContext (.new logger aborter tag)) calls).run schedule) := by
  have reached :=
    reached_run (start (host.withContext (.new logger aborter tag)) calls) schedule
  have ledger :=
    @ledger_run (host.withContext (.new logger aborter tag)) rfl calls schedule
  generalize (start (host.withContext (.new logger aborter tag)) calls).admissions
    schedule = history at *
  generalize (start (host.withContext (.new logger aborter tag)) calls).run
    schedule = machine at *
  have balanced := reached.balanced rfl
  refine
    ⟨ledger.minimum_eq, ?_, machine.writes_step, ledger.chained, ?_,
      fun write member => reached.orderly.owned member, ?_, ?_, ?_⟩
  · rw [ledger.threshold_eq]
    cases latest machine.writes <;> rfl
  · intro earlier write later writes_eq
    rw [ledger.chained earlier write later writes_eq,
      ← @Host.minimum_afterWrites (host.withContext (.new logger aborter tag)) rfl,
      Host.setThreshold_eq]
  · intro index thread own position call member found
    exact (balanced index thread own member found).justified position call
  · intro index thread own member found
    exact (balanced index thread own member found).kept
  · intro index thread own opened position id severity member found opens closes
      earlier begun unconcerned
    exact
      balanced.restored member found opens closes
        (opener?_of_unconcerned opens earlier unconcerned) begun

/-- Two scopes are closed in the order in which they were opened, not the other way. -/
example :
    ((start
          (Host.around (.new (.channel "log" .main true) .terminate "program"))
          [[.openScope "outer" .error, .openScope "inner" .debug,
              .closeScope "outer", .closeScope "inner"],
            [.setThreshold .warning]]).run
        [0, 1, 0, 0, 0]).writes =
      [⟨0, 0, .info, .error⟩,
        ⟨1, 0, .error, .warning⟩,
        ⟨0, 1, .warning, .debug⟩,
        ⟨0, 2, .debug, .info⟩,
        ⟨0, 3, .info, .warning⟩] := by
  rfl

end Machine

end Concurrency

end GatedLog
