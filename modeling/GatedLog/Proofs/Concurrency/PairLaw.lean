import GatedLog.Proofs.Concurrency.Fulfilled
import GatedLog.Proofs.Host

/-!
# No emission sees half of an exchange

Threads initialize a context again and again while others emit, and logger and
aborter are changed by the initializations only, both at a time.  The aborter of
an emission is called after the lock was released, so in between others may have
installed any number of pairs.  Still the lines of the emission and its message
are received by the logger and the aborter of one pair.
-/

namespace GatedLog

/-- What was received is for the logger or the aborter of a context. -/
def Reception.IsFor (context : Context) : Reception → Prop
  | .line logger _ => logger = context.logger
  | .abort aborter _ => aborter = context.aborter

theorem Emission.isFor_of_mem_withAbort
    {emission : Emission}
    {reception : Reception}
    (member : reception ∈ emission.withAbort) :
    reception.IsFor emission.context := by
  rcases List.mem_append.mp member with line | abort
  · rcases List.mem_map.mp line with ⟨text, _, rfl⟩
    rfl
  · rw [List.mem_singleton.mp abort]
    rfl

namespace Concurrency

/-- Of what is owed, everything that was received is for one of the pairs. -/
theorem Received.isFor
    {installed : Context → Prop}
    {whole : Prop}
    {owed : Option Delivery}
    {receptions : List Reception}
    {original : Context}
    (found : installed original)
    (received : Received installed whole owed receptions) :
    ∃ context,
      installed context ∧ ∀ reception ∈ receptions, reception.IsFor context := by
  cases received with
  | nothing =>
      exact ⟨original, found, by simp⟩
  | @emission delivery taken receptions found beginning complete =>
      refine ⟨taken, found, ?_⟩
      intro reception member
      exact Emission.isFor_of_mem_withAbort (beginning.subset member)

/--
How logger and aborter are exchanged by initializations, in the order in which
they take the lock, and what emissions of the highest severity see of it.
-/
structure PairLaw
    (host : Host)
    (calls : List (List Call))
    (history : List Admission)
    (machine : Machine) : Prop where
  /-- The history has initializations that were begun, once each. -/
  admitted :
    (history.map Admission.place).Nodup ∧
      ∀ admission ∈ history,
        ∃ own thread,
          calls[admission.thread]? = some own ∧
            own[admission.call]? = some (.setUp admission.request) ∧
            machine.threads[admission.thread]? = some thread ∧
            admission.call < thread.begun
  /-- Everything that was received was received of a call that was begun. -/
  attributed :
    ∀ entry ∈ machine.log,
      ∃ own thread call,
        calls[entry.thread]? = some own ∧
          own[entry.call]? = some call ∧
          machine.threads[entry.thread]? = some thread ∧
          entry.call < thread.begun
  /-- Of one call, everything that belongs to an abort is for one pair. -/
  undivided :
    ∀ index position : Nat,
      ∃ context,
        Installed host.context history context ∧
          ∀ reception ∈ abortingOf machine.log index position,
            reception.IsFor context
  /-- If it hands over a message, that is its lines and then the call of the aborter. -/
  emitted :
    ∀ (index position : Nat) (own : List Call) (thread : Thread) (call : Call)
        (delivery : Delivery),
      calls[index]? = some own →
        own[position]? = some call →
          machine.threads[index]? = some thread →
            position < thread.begun →
              call.delivery? = some delivery →
                Received (Installed host.context history)
                  (ReliableLoggers host.context calls ∧
                    thread.activityAt position = .idle)
                  delivery.aborting? (abortingOf machine.log index position)
  /-- If it initializes, it is so with the report, if there has to be one. -/
  reported :
    ∀ (earlier later : List Admission) (admission : Admission) (thread : Thread),
      history = earlier ++ admission :: later →
        machine.threads[admission.thread]? = some thread →
          Received (Installed host.context history)
            (ReliableLoggers host.context calls ∧
              thread.activityAt admission.call = .idle)
            ((admission.request.apply (contextAfterAll host.context earlier)).1.map
              (Delivery.ofReport host.reportSite))
            (abortingOf machine.log admission.thread admission.call)
  /-- If it does neither, there is nothing. -/
  silent :
    ∀ (index position : Nat) (own : List Call) (thread : Thread) (call : Call),
      calls[index]? = some own →
        own[position]? = some call →
          machine.threads[index]? = some thread →
            position < thread.begun →
              call.delivery? = none →
                call.request? = none →
                  abortingOf machine.log index position = []

namespace Machine

variable
    {host : Host}
    {calls : List (List Call)}
    {history : List Admission}
    {machine : Machine}

theorem Reached.undivided
    {kept : Prop}
    (sparing : SparingCalls kept calls)
    (reached : Reached (start host calls) history machine)
    (index position : Nat) :
    ∃ context,
      Installed host.context history context ∧
        ∀ reception ∈ abortingOf machine.log index position,
          reception.IsFor context := by
  have original := installed_origin host.context history
  have orderly := reached.orderly
  by_cases begun :
      ∃ thread, machine.threads[index]? = some thread ∧ position < thread.begun
  · rcases begun with ⟨thread, member, begun⟩
    rcases orderly.owns index thread member with ⟨own, found, owns⟩
    have inside : position < own.length := Nat.lt_of_lt_of_le begun owns.begun_le
    rcases reached.fulfilled sparing index thread own position own[position] member
      found (List.getElem?_eq_getElem inside) begun with ⟨owed, _, received, _⟩
    exact received.isFor original
  · have nothing := @Orderly.abortingOf_eq_nil calls machine index position orderly (by
      intro thread member
      by_contra later
      exact begun ⟨thread, member, Nat.lt_of_not_le later⟩)
    rw [nothing]
    exact ⟨host.context, original, by simp⟩

/--
Whatever threads do that exchange logger and aborter by initializations only, no
emission of the highest severity sees half of a pair.
-/
theorem pairLaw_of_sparing
    (host : Host)
    (spares : ∀ own ∈ calls, ∀ call ∈ own, call.sparesPair = true)
    (schedule : List Nat) :
    PairLaw host calls ((start host calls).admissions schedule)
      ((start host calls).run schedule) := by
  have reached := reached_run (start host calls) schedule
  have sparing : SparingCalls False calls := ⟨spares, False.elim⟩
  have orderly := reached.orderly
  refine ⟨⟨reached.nodup, ?_⟩, ?_, reached.undivided sparing, ?_, ?_, ?_⟩
  · intro admission member
    rcases reached.call_of_mem member with ⟨own, found, call_found⟩
    rcases reached.begun_of_mem member with ⟨thread, thread_found, begun⟩
    exact ⟨own, thread, found, call_found, thread_found, begun⟩
  · intro entry member
    rcases orderly.bounded entry member with ⟨thread, thread_found, begun⟩
    rcases orderly.owns entry.thread thread thread_found with ⟨own, found, owns⟩
    have inside : entry.call < own.length := Nat.lt_of_lt_of_le begun owns.begun_le
    exact
      ⟨own, thread, own[entry.call], found, List.getElem?_eq_getElem inside,
        thread_found, begun⟩
  · intro index position own thread call delivery found call_found member begun
      delivers
    exact reached.received_of_delivery sparing member found call_found begun delivers
  · intro earlier later admission thread history_eq member
    exact reached.received_of_admission sparing history_eq member
  · intro index position own thread call found call_found member begun silent
      no_request
    exact reached.abortingOf_eq_nil sparing member found call_found begun silent
      no_request

/-- An initialization with tags that have to be reported. -/
def badlyTagged : Initialization :=
  ⟨none, .ok (some "*:none"), .channel "new" .main true, .unwind "new" none⟩

def untagged : Initialization :=
  ⟨none, .ok none, .channel "newer" .main true, .unwind "newer" none⟩

/-- An emission of the highest severity, and two initializations, by a thread each. -/
def exchanges : List (List Call) :=
  [[.emit ⟨.main, .fatal, "a.rs", 1⟩ "one\ntwo"],
    [.setUp badlyTagged],
    [.setUp untagged]]

/-- A process that these threads find with an older pair. -/
def older : Host :=
  Host.around
    (Context.new (.channel "old" .main true) (.unwind "old" none) "app")

/--
Two initializations come between the release of the lock and the call of the
aborter.  The first one is itself overtaken in the middle of its report.
-/
def overtaking : List Nat :=
  [0, 0, 0, 0, 0, 1, 1, 1, 1, 1, 1, 1, 1, 2, 2, 2, 2, 0, 0, 1, 1]

/-- Both pairs are exchanged by then, and the emission is for the oldest one as a whole. -/
theorem pairLaw_of_overtaken_aborts :
    (∃ context,
      Installed older.context ((start older exchanges).admissions overtaking)
          context ∧
        ∀ reception ∈
            abortingOf ((start older exchanges).run overtaking).log 0 0,
          reception.IsFor context) ∧
      (start older exchanges).admissions overtaking =
        [⟨1, 0, badlyTagged⟩, ⟨2, 0, untagged⟩] ∧
      abortingOf ((start older exchanges).run overtaking).log 0 0 =
        [.line (.channel "old" .main true)
            ⟨⟨.main, .fatal, "a.rs", 1⟩, "app", "one"⟩,
          .line (.channel "old" .main true)
            ⟨⟨.main, .fatal, "a.rs", 1⟩, "app", "two"⟩,
          .abort (.unwind "old" none) "one\ntwo"] := by
  have law :=
    @pairLaw_of_sparing exchanges older (by simp [exchanges, Call.sparesPair])
      overtaking
  exact ⟨law.undivided 0 0, rfl, rfl⟩

end Machine

end Concurrency

end GatedLog
