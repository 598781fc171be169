import GatedLog.Concurrency.Machine

/-!
# Loggers that pass on the same, and calls that only emit or exchange them

Two loggers that put the same channel in place of an unspecified one cannot be
told apart by the lines that arrive, except by their names.  Here are those
loggers, the calls that hand such a logger a message and return, and the calls
that exchange it for another one of its kind.
-/

namespace GatedLog

/-- A logger under whose name every line arrives, on a given channel if on none. -/
structure Logger.Relays (fallback : Channel) (logger : Logger) : Prop where
  reliable : logger.Reliable
  sighting_eq :
    ∀ (line : Line) (written : List UInt8),
      logger.sighting line written =
        .line logger.id { line with channel := line.channel.resolve fallback }

namespace Logger

theorem relays_channel (id : String) (fallback : Channel) :
    (channel id fallback true).Relays fallback :=
  ⟨fun _ => rfl, fun _ _ => rfl⟩

/-- Such a logger has no device. -/
theorem Relays.write_eq
    {fallback : Channel}
    {logger : Logger}
    (relays : logger.Relays fallback)
    (devices : Devices)
    (line : Line) :
    logger.write devices line = (devices, []) := by
  cases logger with
  | kernel id device =>
      cases device with
      | none =>
          rfl
      | some device =>
          cases relays.sighting_eq line []
  | _ =>
      rfl

end Logger

/-- Handing a line to such a logger has no other effect than the event. -/
theorem Emission.hand_of_relays
    {host : Host}
    {fallback : Channel}
    (relays : host.context.logger.Relays fallback)
    (header : Header)
    (text : String) :
    hand header text host =
      ⟨.ok (), host,
        [.line host.context.logger (lineOf host.context header text) []]⟩ := by
  rw [hand_of_taken (relays.reliable text), take, relays.write_eq]

namespace Concurrency

namespace Call

/-- The message that a call has handed over, unless a threshold filters it. -/
def delivery? : Call → Option Delivery
  | .close record => some ⟨record.toHeader, record.message, none⟩
  | .emit header message => some ⟨header, message, none⟩
  | _ => none

/-- A call that emits and returns, or that exchanges the logger for a like one. -/
inductive Plain (context : Context) (fallback : Channel) : Call → Prop where
  | close
      {record : Record}
      (passes : context.shouldEmit record.severity = true)
      (returns : record.severity.aborts = false) :
      Plain context fallback (.close record)
  | emit
      {header : Header}
      (returns : header.severity.aborts = false)
      (message : String) :
      Plain context fallback (.emit header message)
  | setLogger
      {logger : Logger}
      (relays : logger.Relays fallback) :
      Plain context fallback (.setLogger logger)

theorem Plain.quiet
    {context : Context}
    {fallback : Channel}
    {call : Call}
    {delivery : Delivery}
    (plain : call.Plain context fallback)
    (delivers : call.delivery? = some delivery) :
    delivery.header.severity.aborts = false ∧ delivery.announces = none := by
  cases plain with
  | close passes returns =>
      cases delivers
      exact ⟨returns, rfl⟩
  | emit returns message =>
      cases delivers
      exact ⟨returns, rfl⟩
  | setLogger relays =>
      cases delivers

end Call

end Concurrency

end GatedLog
