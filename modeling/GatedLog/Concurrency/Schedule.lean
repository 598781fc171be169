import GatedLog.Concurrency.Machine

/-!
# Running threads one after the other

Among all schedules there is the one in which each thread takes all of its steps
before the next one takes its first.  It is found by giving every thread more
steps than it can need, since steps of a thread that is done change nothing.

What the threads of a machine emitted is best read in the order of threads and
calls, because that order does not depend on the schedule.
-/

namespace GatedLog.Concurrency

/-- Several numbers taken together. -/
def total (numbers : List Nat) : Nat :=
  numbers.foldr (· + ·) 0

@[simp]
theorem total_cons (number : Nat) (numbers : List Nat) :
    total (number :: numbers) = number + total numbers :=
  rfl

/-- How many lines an aborter may emit before its call. -/
def announcedLines : Aborter → Nat
  | .unwind _ (some announcement) =>
    (Text.splitLines announcement.record.message).length
  | _ => 0

namespace Call

/-- How many lines a call may emit, the announcement of an abort apart. -/
def lines : Call → Nat
  | .close record => (Text.splitLines record.message).length
  | .emit _ message => (Text.splitLines message).length
  | .setUp request =>
    match request.problem? with
    | none => 0
    | some problem => (Text.splitLines problem.message).length
  | _ => 0

/-- How many lines the aborter that a call installs may emit. -/
def installedLines : Call → Nat
  | .setAborter aborter => announcedLines aborter
  | .setUp request => announcedLines request.aborter
  | _ => 0

end Call

namespace Machine

/-- More lines than any aborter emits that can be called while the threads run. -/
def abortLines (machine : Machine) : Nat :=
  let installed := machine.threads.map fun thread =>
    total (thread.calls.map Call.installedLines)
  announcedLines machine.host.context.aborter + total installed

/-- The most steps of a call that are not the handing over of a line. -/
def stepsBesideLines : Nat :=
  16

/-- More steps than a thread needs for all of its calls. -/
def enoughSteps (machine : Machine) (thread : Thread) : Nat :=
  let each := thread.calls.map fun call =>
    call.lines + machine.abortLines + stepsBesideLines
  total each

/-- All steps of each thread, before the first step of the next one. -/
def sequentialSchedule (machine : Machine) : List Nat :=
  machine.threads.zipIdx.flatMap fun (thread, index) =>
    List.replicate (machine.enoughSteps thread) index

/-- Whether an entry comes no later than another in the order of threads and calls. -/
def notLater (first second : Entry) : Bool :=
  first.thread < second.thread ||
    (first.thread == second.thread && first.call ≤ second.call)

/-- The log in the order of threads and calls; entries of one call keep their order. -/
def sortedLog (machine : Machine) : List Entry :=
  machine.log.mergeSort notLater

/-- The events of a log. -/
def eventsOf (log : List Entry) : List Event :=
  log.filterMap fun entry =>
    match entry.happening with
    | .event event => some event
    | .threshold _ _ => none

/-- What tells the blocks of a log apart: the thread, its call, and the logger. -/
structure BlockKey where
  thread : Nat
  call : Nat
  logger : String
  deriving DecidableEq, Repr

/-- The keys of the lines in a log, in order. -/
def lineKeys (log : List Entry) : List BlockKey :=
  log.filterMap fun entry =>
    match entry.happening with
    | .event (.line logger _ _) => some ⟨entry.thread, entry.call, logger.id⟩
    | _ => none

/-- A list in which every run of equal neighbours is shortened to one element. -/
def withoutRepeats {Element : Type} [DecidableEq Element] : List Element → List Element
  | [] => []
  | element :: rest =>
    match withoutRepeats rest with
    | [] => [element]
    | next :: others =>
      if element = next then next :: others else element :: next :: others

/--
Whether the lines of each call stand together and are all at one logger: once
runs of equal keys are shortened, no call comes up twice.
-/
def contiguous (log : List Entry) : Bool :=
  let blocks := (withoutRepeats (lineKeys log)).map fun key => (key.thread, key.call)
  decide blocks.Nodup

end Machine

end GatedLog.Concurrency
