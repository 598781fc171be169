import GatedLog.Session.Step

/-!
# Whole sessions

A session runs its steps in order and gives an answer for each.  When they are
over, records that are still open are closed, oldest first, and then the scopes
that are still in force, newest first; each of these is answered as well.

If the process ends during a step, that step has no answer, no later step takes
place, and nothing is closed.  What loggers received during that last step they
received all the same, and the report says why the process ended.
-/

namespace GatedLog.Session

/-- What a step comes to, as its caller sees it. -/
structure Answer where
  /-- What the step returned, or how it was left. -/
  result : Except Departure Result
  events : List Event
  /-- How the context stands after the step. -/
  standing : Standing

/-- What a whole session comes to. -/
structure Report where
  answers : List Answer
  /-- The events of the step during which the process ended. -/
  lost : List Event
  /-- Why the process ended, if it did so before its time. -/
  termination : Option Termination
  /-- The session after its last step. -/
  final : Session

namespace Report

/-- A report preceded by the answer of an earlier step. -/
def afterAnswer (answer : Answer) (report : Report) : Report :=
  { report with answers := answer :: report.answers }

/-- Whether the process ended before its time. -/
def terminated (report : Report) : Bool :=
  report.termination.isSome

/-- All events of a session, in order. -/
def events (report : Report) : List Event :=
  report.answers.flatMap Answer.events ++ report.lost

/-- What the process said on the terminal when it ended before its time. -/
def lastWords? (report : Report) : Option String :=
  report.termination.bind Termination.lastWords?

end Report

/-- Runs operations in order, until the process ends. -/
def runAll (session : Session) : List (Operation Session Result) → Report
  | [] => ⟨[], [], none, session⟩
  | operation :: rest =>
    let outcome := operation session
    match outcome.exit with
    | .error (.terminated cause) => ⟨[], outcome.events, some cause, outcome.state⟩
    | exit =>
      (runAll outcome.state rest).afterAnswer
        ⟨exit, outcome.events, Standing.of outcome.state.host.context⟩

/-- Runs steps in order, until the process ends. -/
def runSteps (session : Session) (steps : List Step) : Report :=
  runAll session (steps.map perform)

/-- Closes something that was left open, and answers with its name. -/
def endOf (id : String) (operation : Operation Session Unit) : Operation Session Result :=
  fun session => (operation session).mapValue fun _ => .ended id

/-- What is left to be done when the steps are over. -/
def leftovers (session : Session) : List (Operation Session Result) :=
  session.records.map (fun entry => endOf entry.1 (closeRecord entry.1)) ++
    session.scopes.map (fun scope => endOf scope.1 (closeScope scope.1))

/-- Runs steps, and then closes what was left open. -/
def run (session : Session) (steps : List Step) : Report :=
  let first := runSteps session steps
  if first.terminated then
    first
  else
    let last := runAll first.final (leftovers first.final)
    { last with answers := first.answers ++ last.answers }

end GatedLog.Session
