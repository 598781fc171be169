import GatedLog.Initialization

/-!
# Threads that share a context

A thread makes a list of calls, one after the other.  A call is not atomic: an
emission waits for the dispatch lock, hands over one line at a time, releases
the lock, and calls the aborter only then; an initialization holds the lock
while it installs the pair, tests and sets the mark, and stores name and
threshold.  What a thread is in the middle of is its activity.
-/

namespace GatedLog.Concurrency

/-- Something that a thread calls a context for. -/
inductive Call where
  /-- Closes a finished record. -/
  | close (record : Record)
  /-- Emits a message without asking the threshold. -/
  | emit (header : Header) (message : String)
  | setLogger (logger : Logger)
  | setAborter (aborter : Aborter)
  | setThreshold (severity : Severity)
  /-- Installs a threshold and keeps the one before under a name. -/
  | openScope (id : String) (severity : Severity)
  /-- Installs the threshold that was kept under a name. -/
  | closeScope (id : String)
  | setUp (request : Initialization)

namespace Call

/-- Whether the first step of a call takes the dispatch lock. -/
def locks : Call → Bool
  | .close _ => false
  | .emit _ _ => false
  | _ => true

end Call

/-- A message on its way to the logger, no longer subject to the threshold. -/
structure Delivery where
  header : Header
  message : String
  /-- The call of an aborter that this message announces, to be resumed after it. -/
  announces : Option (Aborter × String)

/-- What a thread is in the middle of. -/
inductive Activity where
  /-- Between two calls. -/
  | idle
  /-- Waits for the dispatch lock. -/
  | waiting (delivery : Delivery)
  /-- Holds the lock, with these lines still to be handed over. -/
  | dispatching (delivery : Delivery) (remaining : List String)
  /-- About to call an aborter that was taken along from under the lock. -/
  | aborting (aborter : Aborter) (message : String)
  /-- In the call of an aborter that has nothing left to announce. -/
  | announced (aborter : Aborter) (message : String)
  /-- Holds the lock, and has not installed anything yet. -/
  | installing (request : Initialization)
  /-- Holds the lock with the pair installed, and has not tested the mark yet. -/
  | claiming (request : Initialization)
  /-- Holds the lock as the first to initialize; name and threshold are to be stored. -/
  | stashing (request : Initialization)
  /-- Holds the lock with everything in place, and has this to report after it. -/
  | leaving (problem : Option TagsError)

namespace Activity

/-- Whether a thread in the middle of this holds the dispatch lock. -/
def holdsLock : Activity → Bool
  | .dispatching _ _ => true
  | .installing _ => true
  | .claiming _ => true
  | .stashing _ => true
  | .leaving _ => true
  | _ => false

end Activity

/-- One thread. -/
structure Thread where
  activity : Activity
  /-- The calls that have not been begun. -/
  calls : List Call
  /-- How many calls have been begun. -/
  begun : Nat
  /-- The thresholds kept by open scopes, newest first. -/
  scopes : List (String × Severity)

namespace Thread

/-- A thread that has not begun any of its calls. -/
def new (calls : List Call) : Thread where
  activity := .idle
  calls := calls
  begun := 0
  scopes := []

/-- Whether all calls of a thread are over. -/
def isDone (thread : Thread) : Bool :=
  match thread.activity, thread.calls with
  | .idle, [] => true
  | _, _ => false

end Thread

/-- One thing that happened while threads ran. -/
inductive Happening where
  /-- Loggers or aborters received something. -/
  | event (event : Event)
  /-- A threshold replaced the one before. -/
  | threshold (previous current : Severity)

/-- A happening, with the thread and the position of the call that caused it. -/
structure Entry where
  thread : Nat
  call : Nat
  happening : Happening

end GatedLog.Concurrency
