import GatedLog.Proofs.Text.Utf8
import Mathlib.Algebra.Group.Nat.Defs
import Mathlib.Tactic.SplitIfs

/-!
# What the lossy reading shows

A byte string falls into pieces, from left to right.  A piece is the encoding
of a character and shows it, or it is ill-formed and shows as one replacement
character.  Ill-formed is a byte with which no encoding begins, and the longest
beginning of an encoding that the next byte does not continue.

There is exactly one way to read a byte string like that, and the automaton
finds it.  Inside a sequence its state stands for all characters whose encoding
begins with the bytes so far.  Everything else about the lossy reading follows
from the pieces, and not from the automaton.
-/

namespace GatedLog.Utf8

/-- Bytes with which the encoding of some character begins. -/
def Begins (bytes : List UInt8) : Prop :=
  ∃ character : Char, bytes <+: String.utf8EncodeChar character

/-- What the first piece of a byte string shows, given the bytes behind it. -/
inductive Shows (rest : List UInt8) : List UInt8 → Char → Prop where
  /-- The encoding of a character shows that character. -/
  | encoded (character : Char) :
      Shows rest (String.utf8EncodeChar character) character
  /-- An encoding could have begun so, but the next byte does not continue it. -/
  | cutOff
      {piece : List UInt8}
      (nonempty : piece ≠ [])
      (begun : Begins piece)
      (incomplete : ∀ character, piece ≠ String.utf8EncodeChar character)
      (stuck : ∀ byte, rest.head? = some byte → ¬ Begins (piece ++ [byte])) :
      Shows rest piece replacement
  /-- No encoding begins with the byte. -/
  | stray
      {byte : UInt8}
      (foreign : ¬ Begins [byte]) :
      Shows rest [byte] replacement

/-- The text that a byte string shows, piece by piece. -/
inductive Reads : List UInt8 → List Char → Prop where
  | nil : Reads [] []
  | cons
      {piece rest : List UInt8}
      {character : Char}
      {text : List Char}
      (shows : Shows rest piece character)
      (reads : Reads rest text) :
      Reads (piece ++ rest) (character :: text)

/-! ## An encoding is a first byte and continuation bytes -/

/-- The first byte of the encoding of a value. -/
def leadValue (value : Nat) : Nat :=
  if value < 0x80 then value
  else if value < 0x800 then value / 64 + 0xC0
  else if value < 0x10000 then value / 4096 + 0xE0
  else value / 262144 + 0xF0

/-- How many bytes follow the first one. -/
def followers (value : Nat) : Nat :=
  if value < 0x80 then 0
  else if value < 0x800 then 1
  else if value < 0x10000 then 2
  else 3

/-- The last bytes of the encoding of a value, with six bits of it in each. -/
def continuationBytes (value : Nat) : Nat → List UInt8
  | 0 => []
  | count + 1 =>
    UInt8.ofNat (value / 64 ^ count % 64 + 0x80) :: continuationBytes value count

theorem utf8EncodeChar_eq (character : Char) :
    String.utf8EncodeChar character =
      UInt8.ofNat (leadValue character.toNat) ::
        continuationBytes character.toNat (followers character.toNat) := by
  have valid : character.toNat.isValidChar := character.valid
  have value : character.val.toNat = character.toNat := rfl
  simp only [String.utf8EncodeChar, leadValue, followers, value,
    ← Nat.lt_succ_iff]
  unfold Nat.isValidChar at valid
  generalize character.toNat = number at valid
  split
  · rfl
  · split
    · have lead : number / 64 % 32 = number / 64 := by omega
      simp [continuationBytes, lead]
    · split
      · have lead : number / 4096 % 16 = number / 4096 := by omega
        simp [continuationBytes, lead]
      · have lead : number / 262144 % 8 = number / 262144 := by omega
        simp [continuationBytes, lead]

/-- The size of a value decides on the first byte and on how many bytes follow. -/
theorem leadValue_cases (value : Nat) :
    value < 0x80 ∧
        leadValue value = value ∧ followers value = 0 ∨
      (0x80 ≤ value ∧ value < 0x800) ∧
        leadValue value = value / 64 + 0xC0 ∧ followers value = 1 ∨
      (0x800 ≤ value ∧ value < 0x10000) ∧
        leadValue value = value / 4096 + 0xE0 ∧ followers value = 2 ∨
      0x10000 ≤ value ∧
        leadValue value = value / 262144 + 0xF0 ∧ followers value = 3 := by
  unfold leadValue followers
  split_ifs <;> omega

theorem leadValue_lt {value : Nat} (valid : value.isValidChar) :
    leadValue value < 256 := by
  have sizes := leadValue_cases value
  unfold Nat.isValidChar at valid
  omega

theorem singleton_prefix_iff {byte : UInt8} {character : Char} :
    [byte] <+: String.utf8EncodeChar character ↔
      byte.toNat = leadValue character.toNat := by
  have bound := leadValue_lt character.valid
  rw [utf8EncodeChar_eq, List.cons_prefix_cons]
  constructor
  · rintro ⟨rfl, _⟩
    exact UInt8.toNat_ofNat_of_lt' bound
  · intro equality
    refine ⟨?_, List.nil_prefix⟩
    rw [← equality, UInt8.ofNat_toNat]

theorem toNat_ofNat_of_valid {value : Nat} (valid : value.isValidChar) :
    (Char.ofNat value).toNat = value := by
  rw [Char.ofNat, dif_pos valid]
  rfl

/-! ## What the states of the automaton stand for -/

variable
    {byte : UInt8}
    {piece : List UInt8}
    {expectation : Expectation}

/-- A value that a sequence can still become. -/
def Expectation.Covers (expectation : Expectation) (value : Nat) : Prop :=
  expectation.value * 64 + (expectation.next.1 - 0x80) ≤
      value / 64 ^ expectation.further ∧
    value / 64 ^ expectation.further ≤
      expectation.value * 64 + (expectation.next.2 - 0x80)

/-- A range of continuation bytes that is not empty. -/
structure Ranges (range : Nat × Nat) : Prop where
  least : 0x80 ≤ range.1
  ordered : range.1 ≤ range.2
  greatest : range.2 ≤ 0xBF

theorem ranges_continuation : Ranges continuation :=
  ⟨by decide, by decide, by decide⟩

theorem Expectation.admits_iff :
    expectation.admits byte = true ↔
      expectation.next.1 ≤ byte.toNat ∧ byte.toNat ≤ expectation.next.2 := by
  rw [admits, Bool.and_eq_true_iff, decide_eq_true_iff, decide_eq_true_iff]

/-- The bytes of a sequence, and the state that stands for what it can become. -/
structure Expects (piece : List UInt8) (expectation : Expectation) : Prop where
  nonempty : piece ≠ []
  ranges : Ranges expectation.next
  valid : ∀ value : Nat, expectation.Covers value → value.isValidChar
  begun :
    ∀ character : Char,
      piece <+: String.utf8EncodeChar character ↔
        expectation.Covers character.toNat
  following :
    ∀ character : Char,
      expectation.Covers character.toNat →
        String.utf8EncodeChar character =
          piece ++ continuationBytes character.toNat (expectation.further + 1)

/-- What a first byte comes to, in terms of the values whose encodings start with it. -/
def Reading.Opens (byte : UInt8) : Reading → Prop
  | .character value => value = byte.toNat ∧ byte.toNat < 0x80
  | .pending expectation =>
    Ranges expectation.next ∧
      ∀ value : Nat,
        (expectation.Covers value ↔
            value.isValidChar ∧ byte.toNat = leadValue value) ∧
          (expectation.Covers value →
            followers value = expectation.further + 1)
  | .illFormed =>
    ∀ value : Nat, value.isValidChar → byte.toNat ≠ leadValue value

/-- The automaton knows with which bytes the encodings of which values start. -/
theorem opens_ofLead (byte : UInt8) : (Reading.ofLead byte).Opens byte := by
  have bound := byte.toNat_lt
  have foreign :
      (0x80 ≤ byte.toNat ∧ byte.toNat < 0xC2) ∨ 0xF5 ≤ byte.toNat →
        ∀ value : Nat, value.isValidChar → byte.toNat ≠ leadValue value := by
    intro outside value valid
    have sizes := leadValue_cases value
    unfold Nat.isValidChar at valid
    omega
  unfold Reading.ofLead
  dsimp only
  split
  · next ascii =>
      exact ⟨rfl, ascii⟩
  split
  · exact foreign (by omega)
  repeat' split
  rotate_right
  · exact foreign (by omega)
  -- One case for each range of first bytes, all of them by arithmetic.
  all_goals
    refine ⟨⟨?_, ?_, ?_⟩, fun value => ?_⟩
    · dsimp only [continuation]; omega
    · dsimp only [continuation]; omega
    · dsimp only [continuation]; omega
    · have sizes := leadValue_cases value
      dsimp only [Expectation.Covers, continuation, Nat.isValidChar]
      omega

theorem Reading.Opens.expects
    (opened : (Reading.pending expectation).Opens byte) :
    Expects [byte] expectation := by
  rcases opened with ⟨ranges, covers⟩
  refine ⟨List.cons_ne_nil _ _, ranges, ?_, ?_, ?_⟩
  · intro value covered
    exact ((covers value).1.mp covered).1
  · intro character
    rw [singleton_prefix_iff, (covers character.toNat).1]
    exact ⟨fun first => ⟨character.valid, first⟩, And.right⟩
  · intro character covered
    have first := ((covers character.toNat).1.mp covered).2
    have count := (covers character.toNat).2 covered
    rw [utf8EncodeChar_eq, count, ← first, UInt8.ofNat_toNat]
    rfl

namespace Expects

variable (expects : Expects piece expectation)

include expects

/-- A sequence is continued by the byte with the next six bits of what it becomes. -/
theorem concat_prefix_iff {character : Char} :
    piece ++ [byte] <+: String.utf8EncodeChar character ↔
      expectation.Covers character.toNat ∧
        byte.toNat =
          character.toNat / 64 ^ expectation.further % 64 + 0x80 := by
  have bound :
      character.toNat / 64 ^ expectation.further % 64 + 0x80 < 256 := by
    omega
  constructor
  · intro longer
    have covered :=
      (expects.begun character).mp ((List.prefix_append piece [byte]).trans longer)
    rw [expects.following character covered, List.prefix_append_right_inj,
      continuationBytes, List.cons_prefix_cons] at longer
    refine ⟨covered, ?_⟩
    rw [longer.1]
    exact UInt8.toNat_ofNat_of_lt' bound
  · rintro ⟨covered, next⟩
    rw [expects.following character covered, List.prefix_append_right_inj,
      continuationBytes, List.cons_prefix_cons, ← next, UInt8.ofNat_toNat]
    exact ⟨rfl, List.nil_prefix⟩

/-- Every sequence can still become a character. -/
theorem begins : Begins piece := by
  let value :=
    (expectation.value * 64 + (expectation.next.1 - 0x80)) *
      64 ^ expectation.further
  have quotient :
      value / 64 ^ expectation.further =
        expectation.value * 64 + (expectation.next.1 - 0x80) :=
    Nat.mul_div_cancel _ (Nat.pow_pos (by decide))
  have covered : expectation.Covers value := by
    have ordered := expects.ranges.ordered
    rw [Expectation.Covers, quotient]
    omega
  refine ⟨Char.ofNat value, (expects.begun _).mpr ?_⟩
  rw [toNat_ofNat_of_valid (expects.valid value covered)]
  exact covered

/-- A sequence that still expects bytes is no encoding yet. -/
theorem incomplete (character : Char) :
    piece ≠ String.utf8EncodeChar character := by
  rintro rfl
  have covered := (expects.begun character).mp List.prefix_rfl
  have longer := congrArg List.length (expects.following character covered)
  simp [continuationBytes] at longer

theorem not_begins_concat (refused : ¬ expectation.admits byte = true) :
    ¬ Begins (piece ++ [byte]) := by
  rintro ⟨character, longer⟩
  rcases expects.concat_prefix_iff.mp longer with ⟨⟨lower, upper⟩, next⟩
  rcases expects.ranges with ⟨least, ordered, greatest⟩
  rw [Expectation.admits_iff] at refused
  omega

/-- The byte that completes a sequence makes it the encoding of what it was read as. -/
theorem encoded
    {value : Nat}
    (admitted : expectation.admits byte = true)
    (completed : Reading.ofContinuation expectation byte = .character value) :
    String.utf8EncodeChar (Char.ofNat value) = piece ++ [byte] := by
  rcases expects.ranges with ⟨least, ordered, greatest⟩
  rw [Expectation.admits_iff] at admitted
  unfold Reading.ofContinuation at completed
  split at completed
  · next last =>
      rw [Reading.character.injEq] at completed
      have covered : expectation.Covers value := by
        rw [Expectation.Covers, last, Nat.pow_zero, Nat.div_one]
        omega
      have same := toNat_ofNat_of_valid (expects.valid value covered)
      have longer : piece ++ [byte] <+: String.utf8EncodeChar (Char.ofNat value) := by
        rw [expects.concat_prefix_iff, same, last, Nat.pow_zero, Nat.div_one]
        exact ⟨covered, by omega⟩
      have encoding :=
        expects.following (Char.ofNat value) (same.symm ▸ covered)
      refine (longer.eq_of_length ?_).symm
      rw [encoding, last]
      simp [continuationBytes]
  · cases completed

/-- What a longer sequence can become, the shorter one can become with the next byte. -/
theorem covers_ofContinuation
    {later : Expectation}
    (admitted : expectation.admits byte = true)
    (pending : Reading.ofContinuation expectation byte = .pending later) :
    Ranges later.next ∧
      later.further + 1 = expectation.further ∧
        ∀ value : Nat,
          later.Covers value ↔
            expectation.Covers value ∧
              byte.toNat = value / 64 ^ expectation.further % 64 + 0x80 := by
  rcases expects.ranges with ⟨least, ordered, greatest⟩
  rw [Expectation.admits_iff] at admitted
  unfold Reading.ofContinuation at pending
  split at pending
  · cases pending
  · next further more =>
      rw [Reading.pending.injEq] at pending
      subst pending
      refine ⟨ranges_continuation, more.symm, ?_⟩
      intro value
      have sextet :
          value / 64 ^ (further + 1) = value / 64 ^ further / 64 := by
        rw [Nat.pow_succ, Nat.div_div_eq_div_mul]
      simp only [Expectation.Covers, continuation, more, sextet]
      omega

/-- The automaton goes on from a sequence to the sequence with the next byte. -/
theorem continued
    {later : Expectation}
    (admitted : expectation.admits byte = true)
    (pending : Reading.ofContinuation expectation byte = .pending later) :
    Expects (piece ++ [byte]) later := by
  rcases expects.covers_ofContinuation admitted pending with
    ⟨ranges, fewer, covers⟩
  refine
    ⟨List.append_ne_nil_of_right_ne_nil _ (List.cons_ne_nil _ _), ranges,
      ?_, ?_, ?_⟩
  · intro value covered
    exact expects.valid value ((covers value).mp covered).1
  · intro character
    rw [expects.concat_prefix_iff, covers]
  · intro character covered
    rcases (covers character.toNat).mp covered with ⟨earlier, next⟩
    rw [expects.following character earlier, continuationBytes, ← next,
      UInt8.ofNat_toNat, ← fewer, List.append_assoc, List.singleton_append]

/-- Before a byte that is not expected, the sequence is an ill-formed piece. -/
theorem shows
    {rest : List UInt8}
    (refused : ∀ byte, rest.head? = some byte → ¬ expectation.admits byte = true) :
    Shows rest piece replacement :=
  .cutOff expects.nonempty expects.begins expects.incomplete
    fun byte first => expects.not_begins_concat (refused byte first)

end Expects

/-! ## The automaton finds the pieces -/

/-- What a reading says about the bytes that it was made of. -/
def Reading.Means (piece : List UInt8) : Reading → Prop
  | .character value => String.utf8EncodeChar (Char.ofNat value) = piece
  | .pending expectation => Expects piece expectation
  | .illFormed => ∃ byte, piece = [byte] ∧ ¬ Begins [byte]

theorem means_ofLead (byte : UInt8) : (Reading.ofLead byte).Means [byte] := by
  have opened := opens_ofLead byte
  generalize Reading.ofLead byte = reading at opened
  cases reading with
  | character value =>
      rcases opened with ⟨rfl, ascii⟩
      have valid : byte.toNat.isValidChar :=
        Or.inl (Nat.lt_trans ascii (by decide))
      have same := toNat_ofNat_of_valid valid
      rw [Reading.Means, utf8EncodeChar_of_ascii (same.symm ▸ ascii), same,
        UInt8.ofNat_toNat]
  | pending expectation =>
      exact opened.expects
  | illFormed =>
      refine ⟨byte, rfl, ?_⟩
      rintro ⟨character, begun⟩
      exact
        opened character.toNat character.valid (singleton_prefix_iff.mp begun)

theorem means_ofContinuation
    (expects : Expects piece expectation)
    (admitted : expectation.admits byte = true) :
    (Reading.ofContinuation expectation byte).Means (piece ++ [byte]) := by
  cases reading : Reading.ofContinuation expectation byte with
  | character value =>
      exact expects.encoded admitted reading
  | pending later =>
      exact expects.continued admitted reading
  | illFormed =>
      unfold Reading.ofContinuation at reading
      split at reading <;> cases reading

theorem Reads.followedBy
    {rest : List UInt8}
    {reading : Reading}
    {next : Option Expectation → List Char}
    (means : reading.Means piece)
    (fresh : Reads rest (next none))
    (within :
      ∀ expectation, Expects piece expectation →
        Reads (piece ++ rest) (next (some expectation))) :
    Reads (piece ++ rest) (reading.followedBy next) := by
  cases reading with
  | character value =>
      have encoding : String.utf8EncodeChar (Char.ofNat value) = piece := means
      subst encoding
      exact .cons (.encoded _) fresh
  | pending expectation =>
      exact within expectation means
  | illFormed =>
      rcases means with ⟨byte, rfl, foreign⟩
      exact .cons (.stray foreign) fresh

/-- From between two characters, and from within a sequence, the automaton reads on. -/
theorem reads_readLossy (bytes : List UInt8) :
    Reads bytes (readLossy none bytes) ∧
      ∀ piece expectation, Expects piece expectation →
        Reads (piece ++ bytes) (readLossy (some expectation) bytes) := by
  induction bytes with
  | nil =>
      refine ⟨.nil, ?_⟩
      intro piece expectation expects
      exact .cons (expects.shows nofun) .nil
  | cons byte rest induction =>
      have fresh : Reads ([byte] ++ rest) (readLossy none (byte :: rest)) :=
        .followedBy (means_ofLead byte) induction.1 (induction.2 [byte])
      refine ⟨fresh, ?_⟩
      intro piece expectation expects
      by_cases admitted : expectation.admits byte = true
      · have onward :
            Reads (piece ++ [byte] ++ rest)
              ((Reading.ofContinuation expectation byte).followedBy fun pending =>
                readLossy pending rest) :=
          .followedBy (means_ofContinuation expects admitted)
            induction.1 (induction.2 (piece ++ [byte]))
        rw [readLossy, if_pos admitted]
        rwa [List.append_assoc, List.singleton_append] at onward
      · rw [readLossy, if_neg admitted]
        refine .cons (expects.shows ?_) fresh
        intro next first
        cases first
        exact admitted

/-! ## There is one way to read -/

/-- No encoding is the beginning of another one. -/
theorem eq_of_prefix_utf8EncodeChar
    {character other : Char}
    (within : String.utf8EncodeChar character <+: String.utf8EncodeChar other) :
    character = other := by
  rcases within with ⟨rest, whole⟩
  have first :=
    ByteArray.utf8DecodeChar?_utf8EncodeChar_append
      (b := rest.toByteArray) (c := character)
  have second :=
    ByteArray.utf8DecodeChar?_utf8EncodeChar_append
      (b := ByteArray.empty) (c := other)
  rw [← List.toByteArray_append, whole] at first
  rw [ByteArray.append_empty, first] at second
  exact Option.some.inj second

namespace Shows

variable
    {rest other : List UInt8}
    {character : Char}

theorem nonempty (shows : Shows rest piece character) : piece ≠ [] := by
  cases shows with
  | encoded character =>
      rw [utf8EncodeChar_eq]
      exact List.cons_ne_nil _ _
  | cutOff nonempty begun incomplete stuck =>
      exact nonempty
  | stray foreign =>
      exact List.cons_ne_nil _ _

/-- All proper parts of a piece are continued by its next byte. -/
theorem begins_of_eq
    {first more : List UInt8}
    (shows : Shows rest (first ++ byte :: more) character)
    (nonempty : first ≠ []) :
    Begins (first ++ [byte]) := by
  have part : first ++ [byte] <+: first ++ byte :: more := by simp
  generalize whole : first ++ byte :: more = piece at shows part
  cases shows with
  | encoded character =>
      exact ⟨character, part⟩
  | cutOff _ begun incomplete stuck =>
      rcases begun with ⟨encoded, begun⟩
      exact ⟨encoded, part.trans begun⟩
  | stray foreign =>
      cases first with
      | nil =>
          exact absurd rfl nonempty
      | cons start middle =>
          simp at whole

/-- No piece is continued by the byte behind it. -/
theorem not_begins_concat
    (shows : Shows (byte :: rest) piece character) :
    ¬ Begins (piece ++ [byte]) := by
  cases shows with
  | encoded character =>
      rintro ⟨longer, begun⟩
      have same :=
        eq_of_prefix_utf8EncodeChar ((List.prefix_append _ _).trans begun)
      subst same
      have lengths := begun.length_le
      rw [List.length_append, List.length_singleton] at lengths
      exact absurd lengths (Nat.not_succ_le_self _)
  | cutOff _ begun incomplete stuck =>
      exact stuck byte rfl
  | stray foreign =>
      rintro ⟨longer, begun⟩
      exact foreign ⟨longer, (List.prefix_append _ _).trans begun⟩

/-- Of two pieces with which a byte string starts, neither is longer than the other. -/
theorem eq_nil_of_append
    {longer : Char}
    {after : List UInt8}
    (shows : Shows (other ++ after) piece character)
    (shows_longer : Shows after (piece ++ other) longer) :
    other = [] := by
  cases other with
  | nil =>
      rfl
  | cons byte more =>
      exact
        absurd (shows_longer.begins_of_eq shows.nonempty)
          shows.not_begins_concat

theorem piece_eq
    {another : List UInt8}
    {shown : Char}
    (shows : Shows rest piece character)
    (shows_another : Shows other another shown)
    (same : piece ++ rest = another ++ other) :
    piece = another ∧ rest = other := by
  rcases List.append_eq_append_iff.mp same with
    ⟨middle, rfl, rfl⟩ | ⟨middle, rfl, rfl⟩
  · have none_between := shows.eq_nil_of_append shows_another
    subst none_between
    exact ⟨(List.append_nil _).symm, List.nil_append _⟩
  · have none_between := shows_another.eq_nil_of_append shows
    subst none_between
    exact ⟨List.append_nil _, (List.nil_append _).symm⟩

/-- A piece shows the character that it encodes, if there is one. -/
theorem character_eq
    {shown : Char}
    (shows : Shows rest (String.utf8EncodeChar shown) character) :
    character = shown := by
  generalize encoding : String.utf8EncodeChar shown = piece at shows
  cases shows with
  | encoded character =>
      exact (eq_of_prefix_utf8EncodeChar (encoding ▸ List.prefix_rfl)).symm
  | cutOff _ _ incomplete _ =>
      exact absurd encoding.symm (incomplete shown)
  | stray foreign =>
      exact absurd ⟨shown, encoding ▸ List.prefix_rfl⟩ foreign

/-- A piece that encodes no character shows the replacement. -/
theorem eq_replacement
    (shows : Shows rest piece character)
    (foreign : ¬ ∃ shown, piece = String.utf8EncodeChar shown) :
    character = replacement := by
  cases shows with
  | encoded character =>
      exact absurd ⟨character, rfl⟩ foreign
  | cutOff =>
      rfl
  | stray =>
      rfl

theorem unique
    {shown : Char}
    (shows : Shows rest piece character)
    (shows_too : Shows rest piece shown) :
    character = shown := by
  by_cases encodes : ∃ encoded, piece = String.utf8EncodeChar encoded
  · rcases encodes with ⟨encoded, rfl⟩
    exact shows.character_eq.trans shows_too.character_eq.symm
  · exact
      (shows.eq_replacement encodes).trans (shows_too.eq_replacement encodes).symm

end Shows

/-- A byte string shows one text only. -/
theorem Reads.unique
    {bytes : List UInt8}
    {text other : List Char}
    (reads : Reads bytes text)
    (reads_other : Reads bytes other) :
    text = other := by
  induction reads generalizing other with
  | nil =>
      generalize whole : ([] : List UInt8) = bytes at reads_other
      cases reads_other with
      | nil =>
          rfl
      | cons shows _ =>
          exact absurd (List.append_eq_nil_iff.mp whole.symm).1 shows.nonempty
  | @cons piece rest character text shows reads induction =>
      generalize whole : piece ++ rest = bytes at reads_other
      cases reads_other with
      | nil =>
          exact absurd (List.append_eq_nil_iff.mp whole).1 shows.nonempty
      | cons shows_other reads_other =>
          rcases shows.piece_eq shows_other whole with ⟨rfl, rfl⟩
          rw [shows.unique shows_other, induction reads_other]

/-- The lossy reading shows what the pieces of the byte string show. -/
theorem decodeLossy_eq_iff {bytes : List UInt8} {text : String} :
    decodeLossy bytes = text ↔ Reads bytes text.toList := by
  have reads := (reads_readLossy bytes).1
  constructor
  · rintro rfl
    rw [decodeLossy, String.toList_ofList]
    exact reads
  · intro reads_text
    rw [decodeLossy, reads.unique reads_text, String.ofList_toList]

theorem reads_decodeLossy (bytes : List UInt8) :
    Reads bytes (decodeLossy bytes).toList :=
  decodeLossy_eq_iff.mp rfl

/-! ## Well-formed texts, and characters of one byte -/

theorem reads_encode (characters : List Char) :
    Reads (characters.flatMap String.utf8EncodeChar) characters := by
  induction characters with
  | nil =>
      exact .nil
  | cons character rest induction =>
      exact .cons (.encoded character) induction

/-- What is well-formed is read as what it encodes. -/
@[simp]
theorem decodeLossy_encode (text : String) : decodeLossy (encode text) = text :=
  decodeLossy_eq_iff.mpr (reads_encode text.toList)

theorem decodeLossy_eq_empty_iff {bytes : List UInt8} :
    decodeLossy bytes = "" ↔ bytes = [] := by
  constructor
  · intro empty
    have reads := decodeLossy_eq_iff.mp empty
    rw [String.toList_empty] at reads
    cases reads
    rfl
  · rintro rfl
    rfl

section Ascii

variable
    {character : Char}
    (ascii : character.toNat < 0x80)

include ascii

/-- Only a first byte can have a character of one byte. -/
theorem not_begins_concat_of_ascii
    {piece : List UInt8}
    (nonempty : piece ≠ []) :
    ¬ Begins (piece ++ [UInt8.ofNat character.toNat]) := by
  rintro ⟨longer, begun⟩
  have member := begun.subset (List.mem_append_right piece List.mem_cons_self)
  have value : (UInt8.ofNat character.toNat).toNat = character.toNat :=
    UInt8.toNat_ofNat_of_lt' (Nat.lt_trans ascii (by decide))
  rcases Nat.lt_or_ge longer.toNat 0x80 with short | long
  · have lengths := begun.length_le
    rw [utf8EncodeChar_of_ascii short, List.length_append] at lengths
    have positive := List.length_pos_iff.mpr nonempty
    simp only [List.length_singleton] at lengths
    omega
  · have high := le_of_mem_utf8EncodeChar long member
    omega

/-- A character of one byte ends whatever precedes it, however ill-formed that is. -/
theorem Reads.append_cons_of_ascii
    {bytes rest : List UInt8}
    {text later : List Char}
    (reads : Reads bytes text)
    (reads_rest : Reads rest later) :
    Reads (bytes ++ UInt8.ofNat character.toNat :: rest)
      (text ++ character :: later) := by
  induction reads with
  | nil =>
      have encoding := utf8EncodeChar_of_ascii ascii
      have shown : Shows rest [UInt8.ofNat character.toNat] character :=
        encoding ▸ .encoded character
      have starts :
          Reads ([UInt8.ofNat character.toNat] ++ rest) (character :: later) :=
        .cons shown reads_rest
      exact starts
  | @cons piece bytes shown text shows reads induction =>
      rw [List.append_assoc]
      refine .cons ?_ induction
      cases shows with
      | encoded shown =>
          exact .encoded shown
      | cutOff nonempty begun incomplete stuck =>
          refine .cutOff nonempty begun incomplete ?_
          intro byte first
          cases bytes with
          | nil =>
              cases first
              exact not_begins_concat_of_ascii ascii nonempty
          | cons next others =>
              exact stuck byte first
      | stray foreign =>
          exact .stray foreign

theorem decodeLossy_append_cons (bytes rest : List UInt8) :
    decodeLossy (bytes ++ UInt8.ofNat character.toNat :: rest) =
      decodeLossy bytes ++ String.singleton character ++ decodeLossy rest := by
  rw [decodeLossy_eq_iff]
  have joined :=
    (reads_decodeLossy bytes).append_cons_of_ascii ascii (reads_decodeLossy rest)
  simpa using joined

/-- No character of one byte is shown that is not there. -/
theorem mem_of_mem_decodeLossy
    {bytes : List UInt8}
    (member : character ∈ (decodeLossy bytes).toList) :
    UInt8.ofNat character.toNat ∈ bytes := by
  have reads := reads_decodeLossy bytes
  generalize (decodeLossy bytes).toList = text at reads member
  induction reads with
  | nil =>
      cases member
  | @cons piece rest shown text shows reads induction =>
      rw [List.mem_append]
      rcases List.mem_cons.mp member with same | later
      · subst same
        left
        cases shows with
        | encoded =>
            rw [utf8EncodeChar_of_ascii ascii]
            exact List.mem_cons_self
        | cutOff =>
            exact absurd ascii (by decide)
        | stray =>
            exact absurd ascii (by decide)
      · exact Or.inr (induction later)

end Ascii

end GatedLog.Utf8
