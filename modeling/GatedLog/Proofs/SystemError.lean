import GatedLog.Proofs.Text.Fields
import GatedLog.SystemError

/-!
# A description is what the platform says

An error shown in full ends with its number in parentheses, whatever the
description before it may contain.  So taking that ending off gives the
platform's description back, even if the description repeats the number, as
those of unknown errors do.

All descriptions are single lines and not empty, and none ends with a
parenthesis, so none of them has an ending of that kind left.
-/

namespace GatedLog

namespace Decimal

theorem toList_signed (number : Int) :
    ∃ (opening : List Char) (value : Nat),
      (∀ character ∈ opening, character = '-') ∧
        (signed number).toList = opening ++ digits value := by
  cases number with
  | ofNat value =>
      exact ⟨[], value, nofun, String.toList_ofList⟩
  | negSucc value =>
      refine ⟨['-'], value + 1, ?_, ?_⟩
      · intro character member
        exact List.mem_singleton.mp member
      · rw [signed, text, String.toList_append]
        exact congrArg (['-'] ++ ·) String.toList_ofList

/-- A number consists of digits and a minus sign. -/
theorem not_mem_signed
    {character : Char}
    (separates : character.isDigit = false)
    (unsigned : character ≠ '-')
    (number : Int) :
    character ∉ (signed number).toList := by
  rcases toList_signed number with ⟨opening, value, minus, characters⟩
  rw [characters, List.mem_append, not_or]
  exact
    ⟨fun member => unsigned (minus character member),
      not_mem_digits separates value⟩

theorem signed_ne_nil (number : Int) : (signed number).toList ≠ [] := by
  rcases toList_signed number with ⟨opening, value, _, characters⟩
  rw [characters]
  exact List.append_ne_nil_of_right_ne_nil _ Nat.toDigits_ne_nil

end Decimal

namespace SystemError

/-- A text without its ending is what stood before the ending. -/
theorem withoutEnding_append (text ending : String) :
    withoutEnding ending (text ++ ending) = text := by
  have ends : ending.toList.isSuffixOf (text ++ ending).toList = true := by
    rw [String.toList_append, List.isSuffixOf_iff_suffix]
    exact List.suffix_append _ _
  rw [withoutEnding, if_pos ends, String.toList_append, List.length_append,
    Nat.add_sub_cancel, List.take_left', String.ofList_toList]
  rfl

/-- The description is the platform's. -/
theorem describe_eq (code : Int32) : describe code = platformText code :=
  withoutEnding_append _ _

/-- A text that can be the description of an error. -/
structure Describes (text : String) : Prop where
  nonempty : text ≠ ""
  single : '\n' ∉ text.toList
  unclosed : text.toList.getLast? ≠ some ')'

theorem describes_ofList
    {characters : List Char}
    (nonempty : characters ≠ [])
    (single : '\n' ∉ characters)
    (unclosed : characters.getLast? ≠ some ')') :
    Describes (String.ofList characters) := by
  rw [← String.toList_ofList (l := characters)] at single unclosed
  exact
    ⟨fun empty => nonempty (String.ofList_eq_empty_iff.mp empty),
      single, unclosed⟩

theorem describes_of_mem :
    ∀ entry ∈ descriptions, Describes entry.2 := by
  unfold descriptions
  -- Entry by entry, so that each text is compared as the list of characters that it is.
  repeat
    refine
      List.forall_mem_cons.mpr
        ⟨describes_ofList (List.cons_ne_nil _ _) (by decide) (by decide), ?_⟩
  exact nofun

theorem describes_unknown (number : Int) :
    Describes ("Unknown error " ++ Decimal.signed number) := by
  have characters :
      ("Unknown error " ++ Decimal.signed number).toList =
        "Unknown error ".toList ++ (Decimal.signed number).toList :=
    String.toList_append
  have some_digit := Decimal.signed_ne_nil number
  refine ⟨?_, ?_, ?_⟩
  · intro empty
    rw [empty] at characters
    exact some_digit (List.append_eq_nil_iff.mp characters.symm).2
  · rw [characters, List.mem_append, not_or]
    exact ⟨by decide, Decimal.not_mem_signed rfl (by decide) number⟩
  · rw [characters, List.getLast?_append, List.getLast?_eq_some_getLast some_digit,
      Option.some_or]
    intro last
    have member := List.getLast_mem some_digit
    rw [Option.some.inj last] at member
    exact Decimal.not_mem_signed rfl (by decide) number member

/-- Every error number has a description, known or not. -/
theorem describes_platformText (code : Int32) :
    Describes (platformText code) := by
  unfold platformText
  split
  · next text found =>
      rcases List.lookup_eq_some_iff.mp found with ⟨before, after, listed, _⟩
      apply describes_of_mem (code.toInt, text)
      rw [listed]
      exact List.mem_append_right _ List.mem_cons_self
  · exact describes_unknown code.toInt

theorem describes_describe (code : Int32) : Describes (describe code) := by
  rw [describe_eq]
  exact describes_platformText code

/-- No number in parentheses is left at the end of a description. -/
theorem Describes.not_numbered
    {text : String}
    (describes : Describes text)
    (code : Int32) :
    ¬ (numberSuffix code).toList <:+ text.toList := by
  rintro ⟨before, whole⟩
  apply describes.unclosed
  rw [← whole, numberSuffix, String.toList_append, ← List.append_assoc]
  exact List.getLast?_concat

end SystemError

end GatedLog
