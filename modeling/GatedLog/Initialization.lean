import GatedLog.Emission

/-!
# Initialization

Every initialization installs a logger together with an aborter.  The first one
of a context also takes the name of the program and the tags: the name becomes
the tag of the context, and the tags its threshold.  Later ones leave tag and
threshold alone and do not even judge the tags they were given.

All of this happens under the dispatch lock, the context being marked as
initialized before the tags are judged.  Bad tags are reported only after the
lock is released, by a record of the highest severity, through the logger and
aborter that were just installed.
-/

namespace GatedLog

/-- What an initialization is asked for. -/
structure Initialization where
  /-- The path of the program, if it is given. -/
  program : Option String
  /-- The tags, if they are given; or why they could not be had. -/
  tags : Except TagsError (Option String)
  logger : Logger
  aborter : Aborter

namespace Initialization

/-- The threshold that an initialization asks for, if its tags are good. -/
def level (request : Initialization) : Except TagsError (Option Severity) :=
  match request.tags with
  | .error problem => .error problem
  | .ok none => .ok none
  | .ok (some tags) => (Tags.parse tags).map some

/-- A context with the requested logger and aborter. -/
def installPair (request : Initialization) (context : Context) : Context :=
  { context with logger := request.logger, aborter := request.aborter }

/-- The tag of a context after a first initialization. -/
def tagAfter (request : Initialization) (tag : String) : String :=
  match request.program with
  | none => tag
  | some path => Text.basename path

/-- A context with the requested name and threshold, as far as there are any. -/
def stash (request : Initialization) (context : Context) : Context :=
  let named := { context with tag := request.tagAfter context.tag }
  match request.level with
  | .ok (some severity) => named.withMinimum severity
  | _ => named

/-- What a first initialization has to report after it. -/
def problem? (request : Initialization) : Option TagsError :=
  match request.level with
  | .error problem => some problem
  | .ok _ => none

/--
The part of an initialization under the dispatch lock: the context that it
leaves behind, and the problem to be reported, if any.
-/
def apply (request : Initialization) (context : Context) : Option TagsError × Context :=
  let paired := request.installPair context
  if paired.initialized then
    (none, paired)
  else
    (request.problem?, request.stash { paired with initialized := true })

/-- The record that reports bad tags from a place in the program. -/
def report (site : Site) (problem : TagsError) : Record :=
  (Record.start site.file site.line .unspecified .fatal none).append
    problem.message

/-- Initializes the context; reports bad tags if it was the first time. -/
def run (request : Initialization) : Operation Host Unit :=
  (Host.underLock
    (Operation.modifyGet fun host =>
      let result := request.apply host.context
      (result.1, host.withContext result.2))).andThen fun problem host =>
        match problem with
        | none => Operation.done () host
        | some problem => (report host.reportSite problem).close host

/-- Marked or not, the lock is no obstacle to an initialization. -/
theorem run_eq (request : Initialization) :
    request.run =
      (Operation.modifyGet fun host =>
        ((request.apply host.context).1,
          host.withContext (request.apply host.context).2)).andThen
        fun problem host =>
          match problem with
          | none => Operation.done () host
          | some problem => (report host.reportSite problem).close host := by
  rw [run, Host.underLock_eq]

/-- Initializes the context with the tags that the environment has at that time. -/
def runFromEnvironment
    (program : Option String)
    (logger : Logger)
    (aborter : Aborter) :
    Operation Host Unit :=
  fun host =>
    run ⟨program, .ok host.environmentTags, logger, aborter⟩ host

end Initialization

end GatedLog
