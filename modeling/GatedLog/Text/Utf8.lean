/-!
# UTF-8

Texts are encoded by the standard's rule.  In the other direction there are two
readings of a byte string.  The lossy one never fails: it puts one replacement
character for every maximal ill-formed piece, that is, for a byte that starts
no sequence, and for the longest beginning of a sequence that the next byte
does not continue.  The strict one accepts exactly the encodings of texts.

The lossy reading is an automaton over single bytes.  Between two characters it
holds nothing; inside a sequence it holds the value read so far and the ranges
in which the bytes still expected have to lie.
-/

namespace GatedLog.Utf8

/-- The bytes of a text. -/
def encode (text : String) : List UInt8 :=
  text.toList.flatMap String.utf8EncodeChar

/-- What a sequence that has been begun still needs. -/
structure Expectation where
  /-- The bits read so far, as a number. -/
  value : Nat
  /-- The least and the greatest admissible next byte. -/
  next : Nat × Nat
  /-- How many further continuation bytes follow after the next one. -/
  further : Nat
  deriving DecidableEq, Repr

/-- The continuation bytes of the encoding. -/
def continuation : Nat × Nat :=
  (0x80, 0xBF)

/-- What a byte comes to. -/
inductive Reading where
  /-- It completes a character of this value. -/
  | character (value : Nat)
  /-- It opens or continues a sequence that needs more. -/
  | pending (expectation : Expectation)
  /-- No sequence starts with it. -/
  | illFormed
  deriving DecidableEq, Repr

/--
What a byte comes to between two characters.  The narrowed ranges exclude
overlong forms, surrogates, and values above the last code point.
-/
def Reading.ofLead (byte : UInt8) : Reading :=
  let value := byte.toNat
  if value < 0x80 then .character value
  else if value < 0xC2 then .illFormed
  else if value < 0xE0 then .pending ⟨value - 0xC0, continuation, 0⟩
  else if value = 0xE0 then .pending ⟨0, (0xA0, 0xBF), 1⟩
  else if value = 0xED then .pending ⟨0xD, (0x80, 0x9F), 1⟩
  else if value < 0xF0 then .pending ⟨value - 0xE0, continuation, 1⟩
  else if value = 0xF0 then .pending ⟨0, (0x90, 0xBF), 2⟩
  else if value < 0xF4 then .pending ⟨value - 0xF0, continuation, 2⟩
  else if value = 0xF4 then .pending ⟨4, (0x80, 0x8F), 2⟩
  else .illFormed

/-- Whether a byte is one that a sequence expects next. -/
def Expectation.admits (expectation : Expectation) (byte : UInt8) : Bool :=
  expectation.next.1 ≤ byte.toNat && byte.toNat ≤ expectation.next.2

/-- What a byte comes to that a sequence expects next. -/
def Reading.ofContinuation (expectation : Expectation) (byte : UInt8) : Reading :=
  let value := expectation.value * 64 + (byte.toNat - 0x80)
  match expectation.further with
  | 0 => .character value
  | further + 1 => .pending ⟨value, continuation, further⟩

/-- The character that stands for an ill-formed piece. -/
def replacement : Char :=
  '\uFFFD'

/-- The text that starts with what a byte comes to, given how reading goes on. -/
def Reading.followedBy
    (reading : Reading)
    (next : Option Expectation → List Char) :
    List Char :=
  match reading with
  | .character value => Char.ofNat value :: next none
  | .pending expectation => next (some expectation)
  | .illFormed => replacement :: next none

/--
The lossy reading from between two characters (`none`) or from inside a
sequence.  A byte that does not continue the sequence is read afresh, after one
replacement character for what had been begun.
-/
def readLossy : Option Expectation → List UInt8 → List Char
  | none, [] => []
  | some _, [] => [replacement]
  | none, byte :: rest =>
    (Reading.ofLead byte).followedBy fun pending => readLossy pending rest
  | some expectation, byte :: rest =>
    if expectation.admits byte then
      (Reading.ofContinuation expectation byte).followedBy fun pending =>
        readLossy pending rest
    else
      replacement ::
        (Reading.ofLead byte).followedBy fun pending => readLossy pending rest

/-- The text of a byte string, with replacement characters where it is ill-formed. -/
def decodeLossy (bytes : List UInt8) : String :=
  String.ofList (readLossy none bytes)

/-- The text whose encoding the byte string is, if there is one. -/
def decode? (bytes : List UInt8) : Option String :=
  let text := decodeLossy bytes
  if encode text = bytes then some text else none

end GatedLog.Utf8
