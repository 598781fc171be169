import GatedLog.Proofs.Text.Fields
import GatedLog.Text.Utf8

/-!
# The bytes of a text

The encoding respects the order of a text: the bytes of two texts in a row are
the bytes of the one and then those of the other, and no two texts have the
same bytes.  A byte below `0x80` stands only for the character of its own
value, so such a character can be looked for in the bytes as well as in the
text.
-/

namespace GatedLog

namespace Utf8

variable
    {character : Char}
    {first second text : String}

@[simp]
theorem encode_append (first second : String) :
    encode (first ++ second) = encode first ++ encode second := by
  simp [encode]

theorem toByteArray_encode (text : String) :
    (encode text).toByteArray = text.toByteArray :=
  String.utf8Encode_toList

theorem length_encode (text : String) :
    (encode text).length = text.utf8ByteSize := by
  rw [← List.size_toByteArray, toByteArray_encode, String.size_toByteArray]

@[simp]
theorem encode_inj :
    encode first = encode second ↔ first = second := by
  rw [← List.toByteArray_inj, toByteArray_encode, toByteArray_encode,
    String.toByteArray_inj]

/-! ## Characters of one byte -/

theorem utf8EncodeChar_of_ascii
    (ascii : character.toNat < 0x80) :
    String.utf8EncodeChar character = [UInt8.ofNat character.toNat] :=
  if_pos (Nat.le_of_lt_succ ascii)

/-- All bytes of a longer sequence have their high bit set. -/
theorem le_of_mem_utf8EncodeChar
    {byte : UInt8}
    (long : 0x80 ≤ character.toNat)
    (member : byte ∈ String.utf8EncodeChar character) :
    0x80 ≤ byte.toNat := by
  have long_value : ¬ character.val.toNat ≤ 127 :=
    Nat.not_le.mpr long
  simp only [String.utf8EncodeChar, if_neg long_value] at member
  split at member
  · simp only [List.mem_cons, List.not_mem_nil, or_false] at member
    rcases member with rfl | rfl <;>
      simp only [UInt8.toNat_ofNat'] <;> omega
  · split at member
    · simp only [List.mem_cons, List.not_mem_nil, or_false] at member
      rcases member with rfl | rfl | rfl <;>
        simp only [UInt8.toNat_ofNat'] <;> omega
    · simp only [List.mem_cons, List.not_mem_nil, or_false] at member
      rcases member with rfl | rfl | rfl | rfl <;>
        simp only [UInt8.toNat_ofNat'] <;> omega

/-- A character of one byte occurs in a text exactly if its byte does in the bytes. -/
theorem mem_encode_iff
    (ascii : character.toNat < 0x80) :
    UInt8.ofNat character.toNat ∈ encode text ↔ character ∈ text.toList := by
  have value : (UInt8.ofNat character.toNat).toNat = character.toNat :=
    UInt8.toNat_ofNat_of_lt' (Nat.lt_trans ascii (by decide))
  rw [encode, List.mem_flatMap]
  constructor
  · rintro ⟨other, member, inside⟩
    rcases Nat.lt_or_ge other.toNat 0x80 with short | long
    · rw [utf8EncodeChar_of_ascii short, List.mem_singleton] at inside
      have values := congrArg UInt8.toNat inside
      rw [value, UInt8.toNat_ofNat_of_lt' (Nat.lt_trans short (by decide))]
        at values
      rwa [Char.toNat_inj.mp values]
    · have high := le_of_mem_utf8EncodeChar long inside
      rw [value] at high
      exact absurd high (Nat.not_le.mpr ascii)
  · intro member
    refine ⟨character, member, ?_⟩
    rw [utf8EncodeChar_of_ascii ascii]
    exact List.mem_cons_self

/-- A text of characters of one byte has as many bytes as characters. -/
theorem utf8ByteSize_of_ascii
    (ascii : ∀ character ∈ text.toList, character.toNat < 0x80) :
    text.utf8ByteSize = text.toList.length := by
  rw [← length_encode, encode]
  generalize text.toList = characters at ascii ⊢
  induction characters with
  | nil =>
      rfl
  | cons first rest induction =>
      have first_ascii := ascii first List.mem_cons_self
      have others :=
        induction fun other member => ascii other (List.mem_cons_of_mem _ member)
      rw [List.flatMap_cons, utf8EncodeChar_of_ascii first_ascii,
        List.singleton_append, List.length_cons, List.length_cons, others]

end Utf8

theorem Decimal.utf8ByteSize_text (number : Nat) :
    (Decimal.text number).utf8ByteSize = (Decimal.digits number).length := by
  have characters : (Decimal.text number).toList = Decimal.digits number :=
    String.toList_ofList
  rw [← characters]
  apply Utf8.utf8ByteSize_of_ascii
  intro character member
  rw [characters] at member
  have digit : character.isDigit = true :=
    Nat.isDigit_of_mem_toDigits (by decide) (by decide) member
  have bound : character.toNat ≤ 57 :=
    UInt32.le_iff_toNat_le.mp (of_decide_eq_true (Bool.and_eq_true_iff.mp digit).2)
  exact Nat.lt_of_le_of_lt bound (by decide)

end GatedLog
