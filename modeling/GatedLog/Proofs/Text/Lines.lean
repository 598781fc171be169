import GatedLog.Proofs.Text.Pieces
import GatedLog.Text.Lines

/-!
# Cutting a message into lines loses nothing

A message has at least one line, no line contains a line feed, and joining the
lines gives the message back.  So the message that an aborter receives can be
read off the lines that went before.  In the other direction, any lines of that
kind are found again in the message that they are joined to.  No character but
the line feed ends a line, however a terminal may show it.
-/

namespace GatedLog.Text

/-- The lines of a message are its pieces between line feeds. -/
theorem splitLines_eq_pieces (message : String) :
    splitLines message = pieces '\n' message :=
  rfl

/-- Even the empty message has a line. -/
theorem splitLines_ne_nil (message : String) :
    splitLines message ≠ [] := by
  rw [splitLines_eq_pieces]
  exact pieces_ne_nil '\n' message

/-- A line of a message contains no line feed, whatever else it contains. -/
theorem not_mem_of_mem_splitLines
    {message line : String}
    (member : line ∈ splitLines message) :
    '\n' ∉ line.toList := by
  rw [splitLines_eq_pieces] at member
  exact not_mem_of_mem_pieces member

/-- Joining the lines of a message gives the message back. -/
@[simp]
theorem joinLines_splitLines (message : String) :
    joinLines (splitLines message) = message := by
  rw [splitLines_eq_pieces]
  exact intercalate_pieces '\n' message

/-- A message without line feeds is its own single line. -/
theorem splitLines_of_free
    {message : String}
    (free : '\n' ∉ message.toList) :
    splitLines message = [message] := by
  rw [splitLines_eq_pieces]
  exact pieces_of_free free

/-- Where two texts meet, the last line of the one goes on as the first of the other. -/
theorem splitLines_append
    {message other : String}
    {earlier later : List String}
    {last first : String}
    (message_lines : splitLines message = earlier ++ [last])
    (other_lines : splitLines other = first :: later) :
    splitLines (message ++ other) = earlier ++ (last ++ first) :: later := by
  rw [splitLines_eq_pieces] at message_lines other_lines ⊢
  exact pieces_append_of_pieces message_lines other_lines

/-! ## The last line -/

/-- The lines of a message before the last. -/
def earlierLines (message : String) : List String :=
  (splitLines message).dropLast

/-- The last line of a message, which is empty if a line feed ends the message. -/
def lastLine (message : String) : String :=
  (splitLines message).getLast (splitLines_ne_nil message)

theorem splitLines_eq_append (message : String) :
    splitLines message = earlierLines message ++ [lastLine message] :=
  (List.dropLast_concat_getLast (splitLines_ne_nil message)).symm

/-- What is appended without a line feed goes to the end of the last line. -/
theorem splitLines_append_of_free
    {suffix : String}
    (free : '\n' ∉ suffix.toList)
    (message : String) :
    splitLines (message ++ suffix) =
      earlierLines message ++ [lastLine message ++ suffix] :=
  splitLines_append (splitLines_eq_append message) (splitLines_of_free free)

/-! ## The law of lines -/

/-- Lines that a message can have: at least one, and none that contains a line feed. -/
structure AreLines (lines : List String) : Prop where
  nonempty : lines ≠ []
  free : ∀ line ∈ lines, '\n' ∉ line.toList

/-- How messages and their lines determine each other. -/
structure LineLaw (message : String) : Prop where
  /-- A message is cut into lines. -/
  cut : AreLines (splitLines message)
  /-- Nothing is lost by cutting. -/
  joined : joinLines (splitLines message) = message
  /-- Every line feed ends a line, and the last line is ended by nothing. -/
  counted : (splitLines message).length = message.toList.count '\n' + 1
  /-- Nothing is lost by joining. -/
  recovered :
    ∀ lines : List String, AreLines lines → splitLines (joinLines lines) = lines
  /-- No other lines can be joined to the message. -/
  only :
    ∀ lines : List String,
      AreLines lines → joinLines lines = message → lines = splitLines message
  /-- A line feed between two messages keeps their lines apart. -/
  separated :
    ∀ other : String,
      splitLines (message ++ "\n" ++ other) =
        splitLines message ++ splitLines other
  /-- No other character between them does; it is part of a line itself. -/
  connected :
    ∀ (character : Char) (other : String),
      character ≠ '\n' →
        ∀ (earlier later : List String) (last first : String),
          splitLines message = earlier ++ [last] →
            splitLines other = first :: later →
              splitLines (message ++ String.singleton character ++ other) =
                earlier ++
                  (last ++ String.singleton character ++ first) :: later

/-- All messages obey the law of lines. -/
theorem lineLaw (message : String) : LineLaw message where
  cut := ⟨splitLines_ne_nil message, fun _ => not_mem_of_mem_splitLines⟩
  joined := joinLines_splitLines message
  counted := length_pieces '\n' message
  recovered _ lines := pieces_intercalate lines.nonempty lines.free
  only lines are_lines joined := by
    rw [← joined]
    exact (pieces_intercalate are_lines.nonempty are_lines.free).symm
  separated other := pieces_append '\n' message other
  connected character other different earlier later last first message_lines
      other_lines := by
    have character_lines :
        splitLines (String.singleton character) =
          [String.singleton character] := by
      apply splitLines_of_free
      rw [String.toList_singleton, List.mem_singleton]
      exact different.symm
    exact
      splitLines_append (splitLines_append message_lines character_lines)
        other_lines

/-- A carriage return stays at the end of its line, and a line separator within it. -/
theorem lineLaw_of_foreign_breaks :
    splitLines "one\r\n\ntwo\u2028\x00three\n" =
      ["one\r", "", "two\u2028\x00three", ""] := by
  have lines : AreLines ["one\r", "", "two\u2028\x00three", ""] :=
    ⟨nofun, by decide⟩
  have law := lineLaw "one\r\n\ntwo\u2028\x00three\n"
  exact (law.only _ lines (by decide)).symm

end GatedLog.Text
