import GatedLog.Concurrency.Schedule
import GatedLog.Proofs.Concurrency.Lock
import GatedLog.Proofs.Trail

/-!
# Trails of threads

What keeps to a trail as long as one thread runs keeps to it when several share
the process.  Every turn changes the process at most once, by one of the small
things that trails are about, and notes what was received in the log.  So after
every schedule the trail leads from the first process to the last one, along
the events of the log.
-/

namespace GatedLog.Concurrency

/-- The loggers that a call may install. -/
def Call.loggers : Call → List Logger
  | .setLogger logger => [logger]
  | .setUp request => [request.logger]
  | _ => []

/-- The logger that a thread in the middle of something is about to install. -/
def Activity.pending? : Activity → Option Logger
  | .installing request => some request.logger
  | _ => none

/-- Whoever is about to install something holds the lock. -/
theorem Activity.pending?_of_free
    {activity : Activity}
    (free : activity.holdsLock = false) :
    activity.pending? = none := by
  cases activity <;> first | rfl | cases free

/-- Whatever a thread installs from now on is among certain loggers. -/
structure Thread.Installs (Installed : Logger → Prop) (thread : Thread) : Prop where
  calls : ∀ call ∈ thread.calls, ∀ logger ∈ call.loggers, Installed logger
  pending : ∀ logger, thread.activity.pending? = some logger → Installed logger

/-- A thread with nothing pending is bound by its calls alone. -/
theorem Thread.installs_of_calls
    {Installed : Logger → Prop}
    {thread : Thread}
    (calls : ∀ call ∈ thread.calls, ∀ logger ∈ call.loggers, Installed logger)
    (beyond : thread.activity.pending? = none) :
    thread.Installs Installed where
  calls := calls
  pending logger found := by
    rw [beyond] at found
    cases found

/-- A thread that does not begin a call, nor goes back to the point of installing. -/
theorem Thread.Installs.of_same_calls
    {Installed : Logger → Prop}
    {thread next : Thread}
    (installs : thread.Installs Installed)
    (calls_eq : next.calls = thread.calls)
    (beyond : next.activity.pending? = none) :
    next.Installs Installed :=
  Thread.installs_of_calls (calls_eq ▸ installs.calls) beyond

namespace Machine

theorem eventsOf_append (first second : List Entry) :
    eventsOf (first ++ second) = eventsOf first ++ eventsOf second :=
  List.filterMap_append

theorem eventsOf_map_event (thread call : Nat) (events : List Event) :
    eventsOf
        ((events.map Happening.event).map fun happening =>
          ⟨thread, call, happening⟩) =
      events := by
  simp [eventsOf, List.filterMap_map, Function.comp_def]

/-- What storing name and threshold notes is not received by anyone. -/
theorem eventsOf_stashHappenings
    (index call : Nat)
    (request : Initialization)
    (context : Context) :
    eventsOf
        ((stashHappenings request context).map fun happening =>
          ⟨index, call, happening⟩) =
      [] := by
  unfold stashHappenings
  split <;> rfl

/-- A process that threads have come to, along the events in their log. -/
structure OnTrail
    (Installed : Logger → Prop)
    (Relation : Host → List Event → Host → Prop)
    (host : Host)
    (machine : Machine) : Prop where
  installs :
    ∀ (index : Nat) (thread : Thread),
      machine.threads[index]? = some thread → thread.Installs Installed
  related : Relation host (eventsOf machine.log) machine.host

variable
    {Installed : Logger → Prop}
    {Relation : Host → List Event → Host → Prop}
    {host : Host}
    {machine after : Machine}
    {index : Nat}
    {thread next : Thread}

/-- One thread moves on, and changes the process along the events that it notes. -/
theorem OnTrail.of_moved
    (trail : Host.Trail Installed Relation)
    (reached : machine.OnTrail Installed Relation host)
    {added : List Entry}
    (threads_eq : after.threads = machine.threads.set index next)
    (log_eq : after.log = machine.log ++ added)
    (next_installs : next.Installs Installed)
    (related : Relation machine.host (eventsOf added) after.host) :
    after.OnTrail Installed Relation host where
  installs other otherThread member := by
    rw [threads_eq] at member
    rcases getElem?_set_cases member with ⟨_, rfl⟩ | ⟨_, unmoved⟩
    · exact next_installs
    · exact reached.installs other otherThread unmoved
  related := by
    rw [log_eq, eventsOf_append]
    exact trail.trans reached.related related

/-- One thread moves on, and the process is as it was. -/
theorem OnTrail.of_unmoved
    (trail : Host.Trail Installed Relation)
    (reached : machine.OnTrail Installed Relation host)
    (threads_eq : after.threads = machine.threads.set index next)
    (log_eq : after.log = machine.log)
    (host_eq : after.host = machine.host)
    (next_installs : next.Installs Installed) :
    after.OnTrail Installed Relation host := by
  have log_nil : after.log = machine.log ++ [] := by
    rw [log_eq, List.append_nil]
  refine reached.of_moved trail threads_eq log_nil next_installs ?_
  rw [host_eq]
  exact trail.refl machine.host

section

variable
    (trail : Host.Trail Installed Relation)
    (reached : machine.OnTrail Installed Relation host)

include trail reached

/-- One thread changes the context, and nobody receives anything. -/
theorem OnTrail.of_configured
    {context : Context}
    {added : List Entry}
    (threads_eq : after.threads = machine.threads.set index next)
    (log_eq : after.log = machine.log ++ added)
    (silent : eventsOf added = [])
    (host_eq : after.host = machine.host.withContext context)
    (installed :
      context.logger = machine.host.context.logger ∨ Installed context.logger)
    (next_installs : next.Installs Installed) :
    after.OnTrail Installed Relation host := by
  refine reached.of_moved trail threads_eq log_eq next_installs ?_
  rw [silent, host_eq]
  exact trail.configures machine.host context installed

theorem OnTrail.beginCall
    (installs : thread.Installs Installed)
    {call : Call}
    (loggers : ∀ logger ∈ call.loggers, Installed logger) :
    (machine.beginCall index thread call).OnTrail Installed Relation host := by
  cases call with
  | close record =>
      simp only [Machine.beginCall]
      split
      · exact
          reached.of_unmoved trail rfl rfl rfl
            (installs.of_same_calls rfl rfl)
      · exact reached.of_unmoved trail rfl rfl rfl installs
  | emit header message =>
      exact
        reached.of_unmoved trail rfl rfl rfl
          (installs.of_same_calls rfl rfl)
  | setLogger logger =>
      exact
        reached.of_configured trail rfl (List.append_nil _).symm rfl rfl
          (Or.inr (loggers logger List.mem_cons_self)) installs
  | setAborter aborter =>
      exact
        reached.of_configured trail rfl (List.append_nil _).symm rfl rfl
          (Or.inl rfl) installs
  | setThreshold severity =>
      exact
        reached.of_configured trail rfl rfl rfl rfl (Or.inl rfl) installs
  | openScope id severity =>
      exact
        reached.of_configured trail rfl rfl rfl rfl (Or.inl rfl)
          ⟨installs.calls, installs.pending⟩
  | closeScope id =>
      simp only [Machine.beginCall]
      split
      · exact reached.of_unmoved trail rfl rfl rfl installs
      · exact
          reached.of_configured trail rfl rfl rfl rfl (Or.inl rfl)
            ⟨installs.calls, installs.pending⟩
  | setUp request =>
      refine reached.of_unmoved trail rfl rfl rfl ⟨installs.calls, ?_⟩
      rintro _ ⟨rfl⟩
      exact loggers request.logger List.mem_cons_self

theorem OnTrail.handLine
    (installs : thread.Installs Installed)
    (delivery : Delivery)
    (text : String)
    (remaining : List String) :
    (machine.handLine index thread delivery text remaining).OnTrail
      Installed Relation host := by
  have handed := trail.hand delivery.header text machine.host
  rw [← eventsOf_map_event index (thread.begun - 1)
    (Emission.hand delivery.header text machine.host).events] at handed
  simp only [Machine.handLine]
  split
  · exact
      reached.of_moved trail rfl rfl
        (installs.of_same_calls rfl rfl) handed
  · exact
      reached.of_moved trail rfl rfl
        (installs.of_same_calls rfl rfl) handed

theorem OnTrail.of_turn
    (member : machine.threads[index]? = some thread)
    (turn : Turn machine index thread after) :
    after.OnTrail Installed Relation host := by
  have installs := reached.installs index thread member
  cases turn with
  | pauses =>
      exact reached
  | @begins call calls idle following free =>
      refine reached.beginCall trail (Thread.installs_of_calls ?_ ?_) ?_
      · exact fun other otherMember =>
          installs.calls other
            (following ▸ List.mem_cons_of_mem call otherMember)
      · rw [idle]
        rfl
      · exact installs.calls call (following ▸ List.mem_cons_self)
  | @hands delivery text remaining dispatching =>
      exact reached.handLine trail installs delivery text remaining
  | @aborts aborter message announced =>
      have called := trail.aborts machine.host aborter message
      simp only [abort]
      split
      · exact
          reached.of_moved trail (set_getElem?_self member).symm rfl installs
            called
      · exact
          reached.of_moved trail rfl rfl
            (installs.of_same_calls rfl rfl) called
  | releases dispatched =>
      exact
        reached.of_unmoved trail rfl rfl rfl
          (installs.of_same_calls rfl
            (Activity.pending?_of_free (holdsLock_afterDelivery _ _)))
  | announces aborting =>
      exact
        reached.of_unmoved trail rfl rfl rfl
          (installs.of_same_calls rfl
            (Activity.pending?_of_free (holdsLock_announcing _ _ _)))
  | @installs request installing =>
      exact
        reached.of_configured trail rfl (List.append_nil _).symm rfl rfl
          (Or.inr (installs.pending request.logger (installing ▸ rfl)))
          (installs.of_same_calls rfl rfl)
  | claims claiming fresh =>
      exact
        reached.of_configured trail rfl (List.append_nil _).symm rfl rfl
          (Or.inl rfl) (installs.of_same_calls rfl rfl)
  | @stashes request stashing =>
      refine
        reached.of_configured trail rfl rfl
          (eventsOf_stashHappenings _ _ _ _) rfl ?_
          (installs.of_same_calls rfl rfl)
      simp only [Initialization.stash]
      split <;> exact Or.inl rfl
  | _ =>
      exact
        reached.of_unmoved trail rfl rfl rfl
          (installs.of_same_calls rfl rfl)

end

/-- Every schedule leads along the trail, through the events of the log. -/
theorem run_onTrail
    (trail : Host.Trail Installed Relation)
    {calls : List (List Call)}
    (installed :
      ∀ own ∈ calls, ∀ call ∈ own, ∀ logger ∈ call.loggers, Installed logger)
    (schedule : List Nat) :
    ((start host calls).run schedule).OnTrail Installed Relation host := by
  apply run_invariant
  · intro machine after index thread reached member turn
    exact reached.of_turn trail member turn
  · refine ⟨?_, trail.refl host⟩
    intro index thread member
    rcases List.mem_map.mp (List.mem_of_getElem? member) with ⟨own, owns, rfl⟩
    exact Thread.installs_of_calls (installed own owns) rfl

/-- Threads do not move the place from which bad tags are reported. -/
theorem run_reportSite
    (host : Host)
    (calls : List (List Call))
    (schedule : List Nat) :
    ((start host calls).run schedule).host.reportSite = host.reportSite :=
  (run_onTrail Host.reportSite_trail
    (fun _ _ _ _ _ _ => trivial) schedule).related

end Machine

end GatedLog.Concurrency
