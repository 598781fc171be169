import GatedLog.Line.Terminal
import GatedLog.Proofs.Emission
import GatedLog.Proofs.Text.Fields
import GatedLog.Proofs.Text.Lines
import Mathlib.Data.List.Forall2

/-!
# The terminal can be read back

What arrives on the standard error stream is one text.  It consists of lines
that all have the same tag, but whose messages are anything that an emission
hands over, so they may well look like other lines.  A message has no line feed
of its own and stands last in its line, so it can do no harm: the text
determines how many lines there are and what all of their fields are.  Only the
two fatal tiers look alike.

None of this depends on how a terminal is made to show colours, as the letter
itself stands between whatever turns its style on and off.
-/

namespace GatedLog

namespace TerminalLine

/-! ## What is printed -/

/-- The shape of a time; every zero stands for a digit. -/
def timeShape : List Char :=
  "00-00 00:00:00".toList

/-- Whether characters have a shape in which every zero stands for a digit. -/
def hasShape : List Char → List Char → Bool
  | [], [] => true
  | '0' :: shape, character :: rest => character.isDigit && hasShape shape rest
  | symbol :: shape, character :: rest =>
      character == symbol && hasShape shape rest
  | _, _ => false

/-- A line together with its stamp, as it goes to the terminal. -/
structure Print where
  stamp : Stamp
  line : Line
  deriving DecidableEq, Repr

namespace Print

/-- A print as the terminal shows it, without the line feed that ends it. -/
def text (palette : Palette) (coloured : Bool) (print : Print) : String :=
  TerminalLine.text palette coloured print.stamp print.line

/-- What is known of a print before the terminal is read. -/
structure Plain (tag : String) (print : Print) : Prop where
  tag_eq : print.line.tag = tag
  timed : hasShape timeShape print.stamp.timestamp.toList = true
  /-- The file has neither a line feed nor a closing bracket in its name. -/
  file_line : '\n' ∉ print.line.file.toList
  file_bracket : ']' ∉ print.line.file.toList
  message_line : '\n' ∉ print.line.message.toList

/-- Two prints that the terminal shows alike. -/
structure Alike (first second : Print) : Prop where
  letter_eq : first.line.severity.letter = second.line.severity.letter
  timestamp_eq : first.stamp.timestamp = second.stamp.timestamp
  process_eq : first.stamp.process = second.stamp.process
  thread_eq : first.stamp.thread = second.stamp.thread
  file_eq : first.line.file = second.line.file
  line_eq : first.line.line = second.line.line
  message_eq : first.line.message = second.line.message

end Print

/-- What arrives on the terminal: every print ends with a line feed. -/
def stream (palette : Palette) (coloured : Bool) (prints : List Print) : String :=
  String.join (prints.map fun print => print.text palette coloured ++ "\n")

/-! ## The fields of one line -/

theorem length_of_hasShape
    {shape characters : List Char}
    (shaped : hasShape shape characters = true) :
    characters.length = shape.length := by
  fun_induction hasShape shape characters with
  | case1 =>
      rfl
  | case2 shape character rest induction =>
      simpa using induction (Bool.and_eq_true_iff.mp shaped).2
  | case3 symbol shape character rest _ induction =>
      simpa using induction (Bool.and_eq_true_iff.mp shaped).2
  | case4 =>
      cases shaped

/-- A character that is no digit occurs only where the shape has it. -/
theorem not_mem_of_hasShape
    {separator : Char}
    {shape characters : List Char}
    (separates : separator.isDigit = false)
    (apart : separator ∉ shape)
    (shaped : hasShape shape characters = true) :
    separator ∉ characters := by
  fun_induction hasShape shape characters with
  | case1 =>
      exact List.not_mem_nil
  | case2 shape character rest induction =>
      rcases Bool.and_eq_true_iff.mp shaped with ⟨digit, shaped⟩
      intro member
      rcases List.mem_cons.mp member with rfl | member
      · exact Bool.false_ne_true (separates.symm.trans digit)
      · exact
          induction (fun inside => apart (List.mem_cons_of_mem _ inside))
            shaped member
  | case3 symbol shape character rest _ induction =>
      rcases Bool.and_eq_true_iff.mp shaped with ⟨same, shaped⟩
      intro member
      rcases List.mem_cons.mp member with rfl | member
      · exact apart (beq_iff_eq.mp same ▸ List.mem_cons_self)
      · exact
          induction (fun inside => apart (List.mem_cons_of_mem _ inside))
            shaped member
  | case4 =>
      cases shaped

section Marker

variable
    {palette : Palette}
    {coloured : Bool}
    {first second : Severity}

theorem toList_marker (severity : Severity) :
    (marker palette coloured severity).toList =
      if coloured then
        (palette.opening (style severity)).toList ++ [severity.letter] ++
          palette.closing.toList
      else
        [severity.letter] := by
  cases coloured <;> simp [marker]

/-- The same letter is always in the same style. -/
theorem style_eq_of_letter_eq (letters : first.letter = second.letter) :
    style first = style second := by
  cases first <;> cases second <;> first | rfl | exact absurd letters (by decide)

/-- Counted from the end, the letter stands at the same place in every marker. -/
theorem letter_eq_of_marker_eq
    (markers :
      (marker palette coloured first).toList =
        (marker palette coloured second).toList) :
    first.letter = second.letter := by
  rw [toList_marker, toList_marker] at markers
  cases coloured with
  | false =>
      exact (List.cons.inj markers).1
  | true =>
      have before_closing := List.append_cancel_right markers
      exact (List.cons.inj (List.append_inj' before_closing rfl).2).1

theorem marker_eq_iff :
    marker palette coloured first = marker palette coloured second ↔
      first.letter = second.letter := by
  constructor
  · intro markers
    exact letter_eq_of_marker_eq (congrArg String.toList markers)
  · intro letters
    rw [marker, marker, letters, style_eq_of_letter_eq letters]

/-- A marker has the characters of its letter and of what turns its style on and off. -/
theorem not_mem_marker
    {character : Char}
    {severity : Severity}
    (opening : character ∉ (palette.opening (style severity)).toList)
    (letter : character ≠ severity.letter)
    (closing : character ∉ palette.closing.toList) :
    character ∉ (marker palette coloured severity).toList := by
  rw [toList_marker]
  split
  · simp [opening, letter, closing]
  · simp [letter]

theorem blank_not_mem_marker (severity : Severity) :
    ' ' ∉ (marker palette coloured severity).toList :=
  not_mem_marker (palette.opening_free _).1 (by cases severity <;> decide)
    palette.closing_free.1

theorem lineFeed_not_mem_marker (severity : Severity) :
    '\n' ∉ (marker palette coloured severity).toList :=
  not_mem_marker (palette.opening_free _).2 (by cases severity <;> decide)
    palette.closing_free.2

end Marker

namespace Print

variable
    {palette : Palette}
    {coloured : Bool}
    {tag : String}
    {print first second : Print}

theorem toList_text :
    (print.text palette coloured).toList =
      print.line.tag.toList ++ ' ' ::
        ((marker palette coloured print.line.severity).toList ++ ' ' ::
          (print.stamp.timestamp.toList ++ ' ' ::
            ((Decimal.padded idWidth print.stamp.process.toNat).toList ++ ' ' ::
              ((Decimal.padded idWidth print.stamp.thread.toNat).toList ++ ' ' ::
                ((print.line.file.toList ++ ':' ::
                    Decimal.digits print.line.line.toNat) ++ ']' ::
                  ' ' :: print.line.message.toList))))) := by
  simp [text, TerminalLine.text, render, Stamp.text, Decimal.text]

/-- A line under a given tag determines its fields, one after the other. -/
theorem alike_of_text_eq
    (first_plain : first.Plain tag)
    (second_plain : second.Plain tag)
    (equality :
      (first.text palette coloured).toList =
        (second.text palette coloured).toList) :
    first.Alike second := by
  have place_free :
      ∀ {print : Print}, print.Plain tag →
        ']' ∉ print.line.file.toList ++ ':' ::
          Decimal.digits print.line.line.toNat := by
    intro print plain
    simp [plain.file_bracket, Decimal.not_mem_digits]
  have lengths :
      first.stamp.timestamp.toList.length =
        second.stamp.timestamp.toList.length := by
    rw [length_of_hasShape first_plain.timed,
      length_of_hasShape second_plain.timed]
  rw [toList_text, toList_text, first_plain.tag_eq, second_plain.tag_eq]
    at equality
  have after_tag := (List.cons.inj (List.append_cancel_left equality)).2
  rcases Text.fields_eq_of_first
      (blank_not_mem_marker _) (blank_not_mem_marker _) after_tag with
    ⟨markers, after_marker⟩
  rcases List.append_inj after_marker lengths with ⟨times, after_time⟩
  rcases Decimal.columns_eq (List.cons.inj after_time).2 with
    ⟨processes, after_process⟩
  rcases Decimal.columns_eq after_process with ⟨threads, after_thread⟩
  rcases Text.fields_eq_of_first
      (place_free first_plain) (place_free second_plain) after_thread with
    ⟨places, after_place⟩
  -- A file may have colons in its name, so the last colon is the one that counts.
  rcases Text.fields_eq_of_last
      (Decimal.not_mem_digits rfl _) (Decimal.not_mem_digits rfl _) places with
    ⟨files, lines⟩
  exact
    { letter_eq := marker_eq_iff.mp (String.toList_injective markers)
      timestamp_eq := String.toList_injective times
      process_eq := UInt32.toNat_inj.mp processes
      thread_eq := UInt64.toNat_inj.mp threads
      file_eq := String.toList_injective files
      line_eq := UInt32.toNat_inj.mp (Decimal.digits_injective lines)
      message_eq := String.toList_injective (List.cons.inj after_place).2 }

theorem text_eq_of_alike
    (first_plain : first.Plain tag)
    (second_plain : second.Plain tag)
    (alike : first.Alike second) :
    first.text palette coloured = second.text palette coloured := by
  have markers :
      marker palette coloured first.line.severity =
        marker palette coloured second.line.severity :=
    marker_eq_iff.mpr alike.letter_eq
  simp only [text, TerminalLine.text, render, Stamp.text, markers,
    first_plain.tag_eq, second_plain.tag_eq, alike.timestamp_eq,
    alike.process_eq, alike.thread_eq, alike.file_eq, alike.line_eq,
    alike.message_eq]

/-- So the first line feed is the one that ends the line. -/
theorem lineFeed_not_mem_text
    (tag_line : '\n' ∉ tag.toList)
    (plain : print.Plain tag) :
    '\n' ∉ (print.text palette coloured).toList := by
  have time_line : '\n' ∉ print.stamp.timestamp.toList :=
    not_mem_of_hasShape rfl (by decide) plain.timed
  have column_line :
      ∀ number, '\n' ∉ (Decimal.padded idWidth number).toList := by
    intro number
    simp [Decimal.padded, List.leftpad, Decimal.not_mem_digits]
  rw [toList_text, plain.tag_eq]
  simp [tag_line, lineFeed_not_mem_marker, time_line, column_line,
    plain.file_line, plain.message_line, Decimal.not_mem_digits]

end Print

/-! ## The whole stream -/

variable
    {palette : Palette}
    {coloured : Bool}
    {tag : String}

theorem toList_stream_cons (print : Print) (rest : List Print) :
    (stream palette coloured (print :: rest)).toList =
      (print.text palette coloured).toList ++
        '\n' :: (stream palette coloured rest).toList := by
  simp [stream]

/-- Streams of plain prints are the same only if their prints are alike, one by one. -/
theorem alike_of_stream_eq
    {first second : List Print}
    (tag_line : '\n' ∉ tag.toList)
    (first_plain : ∀ print ∈ first, print.Plain tag)
    (second_plain : ∀ print ∈ second, print.Plain tag)
    (equality :
      (stream palette coloured first).toList =
        (stream palette coloured second).toList) :
    List.Forall₂ Print.Alike first second := by
  induction first generalizing second with
  | nil =>
      cases second with
      | nil =>
          exact .nil
      | cons print rest =>
          rw [toList_stream_cons] at equality
          simp [stream] at equality
  | cons print rest induction =>
      cases second with
      | nil =>
          rw [toList_stream_cons] at equality
          simp [stream] at equality
      | cons other others =>
          have plain := first_plain print List.mem_cons_self
          have other_plain := second_plain other List.mem_cons_self
          rw [toList_stream_cons, toList_stream_cons] at equality
          rcases Text.fields_eq_of_first
              (Print.lineFeed_not_mem_text tag_line plain)
              (Print.lineFeed_not_mem_text tag_line other_plain)
              equality with
            ⟨texts, streams⟩
          refine .cons (Print.alike_of_text_eq plain other_plain texts) ?_
          exact
            induction
              (fun print member =>
                first_plain print (List.mem_cons_of_mem _ member))
              (fun print member =>
                second_plain print (List.mem_cons_of_mem _ member))
              streams

theorem stream_eq_of_alike
    {first second : List Print}
    (first_plain : ∀ print ∈ first, print.Plain tag)
    (second_plain : ∀ print ∈ second, print.Plain tag)
    (alike : List.Forall₂ Print.Alike first second) :
    stream palette coloured first = stream palette coloured second := by
  induction alike with
  | nil =>
      rfl
  | @cons print other rest others same _ induction =>
      have texts : print.text palette coloured = other.text palette coloured :=
        Print.text_eq_of_alike
          (first_plain print List.mem_cons_self)
          (second_plain other List.mem_cons_self) same
      have streams :=
        induction
          (fun print member =>
            first_plain print (List.mem_cons_of_mem _ member))
          (fun print member =>
            second_plain print (List.mem_cons_of_mem _ member))
      apply String.toList_injective
      rw [toList_stream_cons, toList_stream_cons, texts, streams]

end TerminalLine

/-! ## What an emission prints -/

section Received

variable
    {logger : Logger}
    {line : Line}

/-- The lines of a message are shown under the tag, and have no line feeds. -/
theorem Emission.shown_of_mem_lines
    {emission : Emission}
    (member : .line logger line ∈ emission.lines) :
    line.tag = emission.context.tag ∧ '\n' ∉ line.message.toList := by
  rcases List.mem_map.mp member with ⟨text, cut, equality⟩
  cases equality
  exact ⟨rfl, Text.not_mem_of_mem_splitLines cut⟩

theorem Aborter.shown_of_mem_announced
    {context : Context}
    {aborter : Aborter}
    (member : .line logger line ∈ aborter.announced context) :
    line.tag = context.tag ∧ '\n' ∉ line.message.toList := by
  unfold announced at member
  split at member
  · rcases List.mem_flatMap.mp member with ⟨emission, emitted, received⟩
    unfold Record.emissions at emitted
    split at emitted
    · cases List.mem_singleton.mp emitted
      exact Emission.shown_of_mem_lines received
    · cases emitted
  · cases member

theorem Emission.shown_of_mem_receptions
    {emission : Emission}
    (member : .line logger line ∈ emission.receptions) :
    line.tag = emission.context.tag ∧ '\n' ∉ line.message.toList := by
  unfold receptions at member
  rcases List.mem_append.mp member with ours | others
  · exact shown_of_mem_lines ours
  · split at others
    · rcases List.mem_append.mp others with announced | called
      · exact Aborter.shown_of_mem_announced announced
      · cases List.mem_singleton.mp called
    · cases others

end Received

namespace TerminalLine

/-- What can be read off a terminal on which everything has the same tag. -/
structure Legible
    (palette : Palette)
    (coloured : Bool)
    (tag : String) : Prop where
  /-- Whatever message is emitted, its lines are printed under the tag and without line feeds. -/
  emitted :
    ∀ (host : Host) (header : Header) (message : String),
      host.context.logger = .terminal coloured →
        host.context.tag = tag →
          ∀ (line : Line) (written : List UInt8),
            Event.line (.terminal coloured) line written ∈
                (emit header message host).events →
              line.tag = tag ∧ '\n' ∉ line.message.toList
  /-- What is printed determines the prints, up to what the terminal shows alike. -/
  determined :
    ∀ first second : List Print,
      (∀ print ∈ first, print.Plain tag) →
        (∀ print ∈ second, print.Plain tag) →
          (stream palette coloured first = stream palette coloured second ↔
            List.Forall₂ Print.Alike first second)

/-- The terminal can be read, whatever its colours, the messages, and who wrote them. -/
theorem legible_of_tag
    {tag : String}
    (palette : Palette)
    (coloured : Bool)
    (tag_line : '\n' ∉ tag.toList) :
    Legible palette coloured tag where
  emitted host header message prints tagged line written member := by
    have reliable : host.context.logger.Reliable := by
      rw [prints]
      exact fun _ => rfl
    have received := List.mem_map_of_mem (f := Event.reception) member
    rw [(emit_emits header message reliable).received] at received
    rw [← tagged]
    exact Emission.shown_of_mem_receptions received
  determined first second first_plain second_plain := by
    constructor
    · intro equality
      exact
        alike_of_stream_eq tag_line first_plain second_plain
          (congrArg String.toList equality)
    · exact stream_eq_of_alike first_plain second_plain

/-- A print with a file that has colons, by a thread with a wide number. -/
def honest : List Print :=
  [⟨⟨"10-17 09:05:03", 1234567, 18446744073709551615⟩,
      ⟨⟨.main, .fatal, "a:1.rs", 42⟩, "my app", "one"⟩⟩,
    ⟨⟨"10-17 09:05:04", 7, 8⟩,
      ⟨⟨.main, .info, "b.rs", 2⟩, "my app", "two"⟩⟩]

/-- The message of this print continues as the next line would have begun. -/
def forged : List Print :=
  [⟨⟨"10-17 09:05:03", 1234567, 18446744073709551615⟩,
      ⟨⟨.main, .fatalWithoutAbort, "a:1.rs", 42⟩, "my app",
        "one my app I 10-17 09:05:04     7     8 b.rs:2] two"⟩⟩]

theorem honest_plain : ∀ print ∈ honest, print.Plain "my app" := by
  simp only [honest, List.mem_cons, List.not_mem_nil, or_false,
    forall_eq_or_imp, forall_eq]
  exact
    ⟨⟨rfl, by decide, by decide, by decide, by decide⟩,
      ⟨rfl, by decide, by decide, by decide, by decide⟩⟩

theorem forged_plain : ∀ print ∈ forged, print.Plain "my app" := by
  simp only [forged, List.mem_cons, List.not_mem_nil, or_false, forall_eq]
  exact ⟨rfl, by decide, by decide, by decide, by decide⟩

/-- A message that looks like a line is not taken for one, in colours or without. -/
theorem legible_of_forged_line :
    stream .escapes false honest ≠ stream .escapes false forged ∧
      stream .escapes true honest ≠ stream .escapes true forged := by
  have differ :
      ∀ coloured,
        stream .escapes coloured honest ≠ stream .escapes coloured forged := by
    intro coloured equality
    have law := @legible_of_tag "my app" .escapes coloured (by decide)
    have alike :=
      (law.determined honest forged honest_plain forged_plain).mp equality
    cases alike with
    | cons _ rest =>
        cases rest
  exact ⟨differ false, differ true⟩

end TerminalLine

end GatedLog
