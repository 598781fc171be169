import GatedLog.Emission

/-!
# Processes whose loggers and aborters behave

Most of what can be said about a run presupposes that no logger panics and that
every aborter leaves for its caller.  A process has up to two contexts, the one
at hand and the process-wide one, and both of them count.
-/

namespace GatedLog

/-- An aborter that leaves for its caller, and does not end the process. -/
def Aborter.Unwinds (aborter : Aborter) : Prop :=
  aborter ≠ .terminate

theorem Aborter.departure_of_unwinds
    {aborter : Aborter}
    (unwinds : aborter.Unwinds)
    (message : String) :
    aborter.departure message = .aborted message := by
  cases aborter with
  | terminate =>
      exact absurd rfl unwinds
  | unwind id announcement =>
      rfl

namespace Host

/-- A property of the context at hand and of the process-wide one. -/
structure Everywhere (Property : Context → Prop) (host : Host) : Prop where
  here : Property host.context
  shared : Property host.sharedContext

/-- All loggers take every message. -/
def Reliable (host : Host) : Prop :=
  host.Everywhere fun context => context.logger.Reliable

/-- All aborters leave for their callers. -/
def Unwinds (host : Host) : Prop :=
  host.Everywhere fun context => context.aborter.Unwinds

/-- Where the process-wide context is another one, what is done here spares it. -/
theorem Everywhere.of_here
    {Property : Context → Prop}
    {host later : Host}
    (before : host.Everywhere Property)
    (shared_eq : later.shared = host.shared)
    (here : Property later.context) :
    later.Everywhere Property := by
  refine ⟨here, ?_⟩
  cases apart : host.shared with
  | none =>
      simpa [sharedContext, shared_eq, apart] using here
  | some shared =>
      simpa [sharedContext, shared_eq, apart] using before.shared

/-- A process around a context, in which nothing has happened yet. -/
def around (context : Context) : Host where
  context := context
  shared := none
  lockMarked := false
  devices := []
  errno := 0
  environment := none
  bridged := false
  firstArgument := none
  reportSite := ⟨"src/setup.rs", 20⟩

theorem everywhere_around
    {Property : Context → Prop}
    {context : Context}
    (here : Property context) :
    (around context).Everywhere Property :=
  ⟨here, here⟩

end Host

end GatedLog
