import GatedLog.Proofs.Argument
import GatedLog.Proofs.Host

/-!
# Records that are begun, written and closed in one go

The argument of such a record is formatted in the context at hand; the record
itself belongs to that context or to the process-wide one.  Either way the
emissions of the argument come first, and the record is filtered by the
threshold that the argument has left behind.
-/

namespace GatedLog

namespace Record

/-- The emissions of an argument and of the record that it is formatted into. -/
def emissionsWith (record : Record) (argument : List Piece) (context : Context) :
    List Emission :=
  Argument.emissions context argument ++
    (record.written argument).emissions (Argument.contextAfter context argument)

/-- The same, for a record that belongs to the process-wide context. -/
def sharedEmissionsWith (record : Record) (argument : List Piece) (host : Host) :
    List Emission :=
  Argument.emissions host.context argument ++
    (record.written argument).emissions
      (host.withContext
        (Argument.contextAfter host.context argument)).sharedContext

variable
    {host : Host}
    (record : Record)
    (argument : List Piece)

theorem writeAndClose_contexts (reliable : host.Reliable) :
    (record.writeAndClose argument host).state.context =
        Argument.contextAfter host.context argument ∧
      (record.writeAndClose argument host).state.shared = host.shared := by
  have performs := Argument.write_performs argument reliable.here
  apply writeThen_contexts performs
  apply close_emits
  rw [performs.context_eq, Argument.contextAfter_logger]
  exact reliable.here

theorem writeAndClose_received
    (reliable : host.Reliable)
    (unwinds : host.Unwinds) :
    (record.writeAndClose argument host).events.map Event.reception =
      (record.emissionsWith argument host.context).flatMap
        Emission.receptions := by
  have performs := Argument.write_performs argument reliable.here
  rw [emissionsWith, List.flatMap_append, ← performs.context_eq]
  apply writeThen_received performs unwinds.here
  apply close_emits
  rw [performs.context_eq, Argument.contextAfter_logger]
  exact reliable.here

theorem sharedContext_after_write (reliable : host.Reliable) :
    (Argument.write argument host).outcome.state.sharedContext =
      (host.withContext
        (Argument.contextAfter host.context argument)).sharedContext := by
  have performs := Argument.write_performs argument reliable.here
  simp only [Host.sharedContext, Host.withContext, performs.shared_eq,
    performs.context_eq]

theorem reliable_after_write (reliable : host.Reliable) :
    (Argument.write argument host).outcome.state.Reliable := by
  have performs := Argument.write_performs argument reliable.here
  apply reliable.of_here performs.shared_eq
  rw [performs.context_eq, Argument.contextAfter_logger]
  exact reliable.here

theorem writeAndCloseShared_contexts (reliable : host.Reliable) :
    (record.writeAndCloseShared argument host).state.context =
        Argument.contextAfter host.context argument ∧
      (record.writeAndCloseShared argument host).state.shared = host.shared :=
  writeThen_contexts
    (Argument.write_performs argument reliable.here)
    (closeShared_emits _ (reliable_after_write argument reliable).shared)

theorem writeAndCloseShared_received
    (reliable : host.Reliable)
    (unwinds : host.Unwinds) :
    (record.writeAndCloseShared argument host).events.map Event.reception =
      (record.sharedEmissionsWith argument host).flatMap
        Emission.receptions := by
  rw [sharedEmissionsWith, List.flatMap_append,
    ← sharedContext_after_write argument reliable]
  exact
    writeThen_received
      (Argument.write_performs argument reliable.here) unwinds.here
      (closeShared_emits _ (reliable_after_write argument reliable).shared)

end Record

end GatedLog
