import GatedLog.Proofs.Emission
import GatedLog.Proofs.Host
import GatedLog.Proofs.SystemError
import GatedLog.Proofs.Text.Lines

/-!
# An error is described at the end of a message

A record with an error stands for its text followed by the description of the
error.  The description is appended once, before the message is cut into lines,
and it is a single line itself.  So it goes to the end of the last line, even if
that is empty, and to the end of what an aborter receives.  Nothing else that is
received tells a record with an error from the same record without one.
-/

namespace GatedLog

/-- The logger and the line of a reception, if it is a line. -/
def Reception.received? : Reception → Option (Logger × Line)
  | .line logger received => some (logger, received)
  | .abort _ _ => none

theorem Event.received?_comp_reception :
    Reception.received? ∘ Event.reception = Event.received? := by
  funext event
  cases event <;> rfl

namespace Record

theorem errorSuffix_single (error : Option Int32) :
    '\n' ∉ (errorSuffix error).toList := by
  cases error with
  | none =>
      exact List.not_mem_nil
  | some code =>
      have description := (SystemError.describes_describe code).single
      rw [errorSuffix, String.toList_append, List.mem_append, not_or]
      exact ⟨by decide, description⟩

/-- The same record, with an error or without one. -/
def withError (record : Record) (error : Option Int32) : Record :=
  { record with error := error }

/-- What is received of a line of a record. -/
def lineIn (context : Context) (record : Record) (text : String) : Reception :=
  .line context.logger (Emission.lineOf context record.toHeader text)

/-- What is received of a record whose text is continued by a suffix. -/
def receptionsWith
    (suffix : String)
    (context : Context)
    (record : Record) :
    List Reception :=
  (Text.earlierLines record.text).map (record.lineIn context) ++
    record.lineIn context (Text.lastLine record.text ++ suffix) ::
      if record.severity.aborts then
        context.aborter.announced context ++
          [.abort context.aborter (record.text ++ suffix)]
      else
        []

/-- How the emission of such a record is left. -/
def exitWith
    (suffix : String)
    (context : Context)
    (record : Record) :
    Except Departure Unit :=
  if record.severity.aborts then
    .error (context.aborter.departure (record.text ++ suffix))
  else
    .ok ()

theorem receptions_withError
    (record : Record)
    (context : Context)
    (error : Option Int32) :
    ((record.withError error).emission context).receptions =
      record.receptionsWith (errorSuffix error) context := by
  have lines :
      Text.splitLines (record.withError error).message =
        Text.earlierLines record.text ++
          [Text.lastLine record.text ++ errorSuffix error] :=
    Text.splitLines_append_of_free (errorSuffix_single error) record.text
  rw [Emission.receptions, Emission.lines, emission, lines, List.map_append,
    List.append_assoc]
  rfl

/-- A suffix adds no line and takes none away. -/
theorem length_received_receptionsWith
    (suffix : String)
    (context : Context)
    (record : Record) :
    ((record.receptionsWith suffix context).filterMap
        Reception.received?).length =
      ((record.receptionsWith "" context).filterMap
        Reception.received?).length := by
  simp only [receptionsWith, lineIn, List.filterMap_append,
    List.filterMap_cons, Reception.received?, List.length_append,
    List.length_cons]
  split
  · simp only [List.filterMap_append, List.filterMap_cons,
      Reception.received?]
  · rfl

end Record

namespace Outcome

/-- A record was emitted, its text continued by a suffix. -/
structure EmitsWith
    (outcome : Outcome Host Unit)
    (suffix : String)
    (context : Context)
    (record : Record) : Prop where
  received :
    outcome.events.map Event.reception = record.receptionsWith suffix context
  left : outcome.exit = record.exitWith suffix context

theorem EmitsWith.length_received
    {outcome : Outcome Host Unit}
    {suffix : String}
    {context : Context}
    {record : Record}
    (emits : outcome.EmitsWith suffix context record) :
    (outcome.events.filterMap Event.received?).length =
      ((record.receptionsWith "" context).filterMap
        Reception.received?).length := by
  rw [← record.length_received_receptionsWith suffix, ← emits.received,
    List.filterMap_map, Event.received?_comp_reception]

end Outcome

namespace Record

theorem close_emitsWith
    {record : Record}
    {host : Host}
    (reliable : host.context.logger.Reliable)
    (passes : host.shouldEmit record.severity = true)
    (error : Option Int32) :
    ((record.withError error).close host).EmitsWith (errorSuffix error)
      host.context record := by
  have emits := (record.withError error).close_emits reliable
  have single :
      (record.withError error).emissions host.context =
        [(record.withError error).emission host.context] :=
    if_pos passes
  rw [single, List.flatMap_singleton, receptions_withError] at emits
  exact ⟨emits.received, emits.exit_eq⟩

/-! ## The law of error suffixes -/

/-- What the number of an error changes in what a record comes to. -/
structure SuffixLaw (record : Record) (code : Int32) (host : Host) : Prop where
  /-- Without an error the lines are those of the text. -/
  bare :
    ((record.withError none).close host).EmitsWith "" host.context record
  /--
  With an error the description follows the last line, and it follows the text
  that an aborter receives.
  -/
  described :
    ((record.withError (some code)).close host).EmitsWith
      (": " ++ SystemError.describe code) host.context record
  /-- The number of lines stays the same. -/
  counted :
    (((record.withError (some code)).close host).events.filterMap
        Event.received?).length =
      (((record.withError none).close host).events.filterMap
        Event.received?).length
  /-- The description is that of the platform. -/
  platform : SystemError.describe code = SystemError.platformText code
  nonempty : SystemError.describe code ≠ ""
  single : '\n' ∉ (SystemError.describe code).toList
  /-- The number that follows it when an error is shown in full is gone, as is any other. -/
  unnumbered :
    ∀ other : Int32,
      ¬ (SystemError.numberSuffix other).toList <:+
        (SystemError.describe code).toList

/-- All errors obey the law of suffixes, in records that are emitted. -/
theorem suffixLaw
    (record : Record)
    (code : Int32)
    (host : Host)
    (reliable : host.context.logger.Reliable)
    (passes : host.shouldEmit record.severity = true) :
    SuffixLaw record code host where
  bare := close_emitsWith reliable passes none
  described := close_emitsWith reliable passes (some code)
  counted := by
    rw [(close_emitsWith reliable passes (some code)).length_received,
      (close_emitsWith reliable passes none).length_received]
  platform := SystemError.describe_eq code
  nonempty := (SystemError.describes_describe code).nonempty
  single := (SystemError.describes_describe code).single
  unnumbered := (SystemError.describes_describe code).not_numbered

/-- An empty last line receives the whole suffix, even that of an unknown error. -/
theorem suffixLaw_of_unknown_error :
    (close
        { Record.start "src/db.rs" 9 .system .fatal (some (-7)) with
          text := "lost\n" }
        (Host.around
          (Context.new (.channel "main" .main true) (.unwind "main" none)
            "app"))).events.map Event.reception =
      [.line (.channel "main" .main true)
          ⟨⟨.system, .fatal, "db.rs", 9⟩, "app", "lost"⟩,
        .line (.channel "main" .main true)
          ⟨⟨.system, .fatal, "db.rs", 9⟩, "app", ": Unknown error -7"⟩,
        .abort (.unwind "main" none) "lost\n: Unknown error -7"] := by
  have law :=
    suffixLaw
      { Record.start "src/db.rs" 9 .system .fatal none with text := "lost\n" }
      (-7)
      (Host.around
        (Context.new (.channel "main" .main true) (.unwind "main" none) "app"))
      (fun _ => rfl) rfl
  have described := law.described.received
  rw [law.platform] at described
  exact described

end Record

end GatedLog
