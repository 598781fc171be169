import GatedLog.Text.Decimal

/-!
# Fields that can be told apart

A field that does not contain its separator ends at the first one.  So a text
of two such fields determines both of them.  A number in a column has blanks
before its digits and none among them; it is determined as well, however wide
it is.
-/

namespace GatedLog

namespace Text

variable
    {Element : Type}
    {separator : Element}
    {first second rest others : List Element}

/-- Up to its first separator a text is determined, and so is what follows it. -/
theorem fields_eq_of_first
    (first_free : separator ∉ first)
    (second_free : separator ∉ second)
    (equality : first ++ separator :: rest = second ++ separator :: others) :
    first = second ∧ rest = others := by
  induction first generalizing second with
  | nil =>
      cases second with
      | nil =>
          exact ⟨rfl, (List.cons.inj equality).2⟩
      | cons element second =>
          have same : separator = element := (List.cons.inj equality).1
          exact absurd (same ▸ List.mem_cons_self) second_free
  | cons element first induction =>
      cases second with
      | nil =>
          have same : element = separator := (List.cons.inj equality).1
          exact absurd (same ▸ List.mem_cons_self) first_free
      | cons other second =>
          rcases List.cons.inj equality with ⟨same, equality⟩
          have fields :=
            induction
              (fun member => first_free (List.mem_cons_of_mem _ member))
              (fun member => second_free (List.mem_cons_of_mem _ member))
              equality
          exact ⟨same ▸ fields.1 ▸ rfl, fields.2⟩

/-- After its last separator a text is determined, and so is what precedes it. -/
theorem fields_eq_of_last
    (rest_free : separator ∉ rest)
    (others_free : separator ∉ others)
    (equality : first ++ separator :: rest = second ++ separator :: others) :
    first = second ∧ rest = others := by
  have reversed := congrArg List.reverse equality
  simp only [List.reverse_append, List.reverse_cons, List.append_assoc,
    List.singleton_append] at reversed
  have fields :=
    fields_eq_of_first
      (fun member => rest_free (List.mem_reverse.mp member))
      (fun member => others_free (List.mem_reverse.mp member))
      reversed
  exact ⟨List.reverse_inj.mp fields.2, List.reverse_inj.mp fields.1⟩

end Text

namespace Decimal

theorem digits_injective
    {first second : Nat}
    (equality : digits first = digits second) :
    first = second := by
  have values := congrArg (Nat.ofDigitChars 10 · 0) equality
  simpa [digits] using values

/-- Whatever is no digit can separate numbers. -/
theorem not_mem_digits
    {character : Char}
    (separates : character.isDigit = false)
    (number : Nat) :
    character ∉ digits number := by
  intro member
  have digit := Nat.isDigit_of_mem_toDigits (by decide) (by decide) member
  rw [separates] at digit
  cases digit

/-- The first character after the blanks of a column is a digit. -/
theorem dropWhile_padded (width number : Nat) (rest : List Char) :
    ((padded width number).toList ++ rest).dropWhile (· == ' ') =
      digits number ++ rest := by
  have blanks :
      ∀ character ∈ List.replicate (width - (digits number).length) ' ',
        (character == ' ') = true := by
    intro character member
    rw [List.eq_of_mem_replicate member]
    rfl
  rw [padded, String.toList_ofList, List.leftpad, List.append_assoc,
    List.dropWhile_append_of_pos blanks]
  cases shown : digits number with
  | nil =>
      exact absurd shown Nat.toDigits_ne_nil
  | cons digit others =>
      have digit_ne : digit ≠ ' ' := by
        intro blank
        have free : ' ' ∉ digits number := not_mem_digits rfl number
        rw [shown, blank] at free
        exact free List.mem_cons_self
      simp [digit_ne]

/-- A column that a blank ends is determined, and so is what follows it. -/
theorem columns_eq
    {width first second : Nat}
    {rest others : List Char}
    (equality :
      (padded width first).toList ++ ' ' :: rest =
        (padded width second).toList ++ ' ' :: others) :
    first = second ∧ rest = others := by
  have numbers := congrArg (List.dropWhile (· == ' ')) equality
  rw [dropWhile_padded, dropWhile_padded] at numbers
  have fields :=
    Text.fields_eq_of_first
      (not_mem_digits rfl first) (not_mem_digits rfl second) numbers
  exact ⟨digits_injective fields.1, fields.2⟩

end Decimal

end GatedLog
