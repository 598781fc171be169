/-!
# Texts that are cut at a separator

There is exactly one way to write a text as pieces that are free of a separator
and joined by it, and cutting the text at the separator finds that way.  The
empty text is one piece, and a separator at either end or next to another one
has an empty piece beside it.  Two texts with a separator between them have the
pieces of the first and then those of the second.  Without a separator between
them the pieces that meet become one.
-/

namespace GatedLog.Text

variable {separator : Char}

/-- No piece of a text that is cut at a separator contains the separator. -/
theorem not_mem_of_mem_splitOn
    {characters piece : List Char}
    (member : piece ∈ characters.splitOn separator) :
    separator ∉ piece := by
  induction characters generalizing piece with
  | nil =>
      rw [List.splitOn_nil, List.mem_singleton] at member
      rw [member]
      exact List.not_mem_nil
  | cons character rest induction =>
      rw [List.splitOn_cons_eq_if_modifyHead] at member
      split at member
      · rcases List.mem_cons.mp member with rfl | later
        · exact List.not_mem_nil
        · exact induction later
      · next apart =>
          rcases List.exists_cons_of_ne_nil
              (List.splitOn_ne_nil separator rest) with
            ⟨first, others, pieces⟩
          rw [pieces, List.modifyHead_cons] at member
          rcases List.mem_cons.mp member with rfl | later
          · have free : separator ∉ first :=
              induction (pieces ▸ List.mem_cons_self)
            intro inside
            rcases List.mem_cons.mp inside with same | inside
            · exact apart (beq_iff_eq.mpr same.symm)
            · exact free inside
          · exact induction (pieces ▸ List.mem_cons_of_mem _ later)

/-- The pieces of a text between separators, in order. -/
def pieces (separator : Char) (text : String) : List String :=
  (text.toList.splitOn separator).map String.ofList

theorem pieces_ne_nil (separator : Char) (text : String) :
    pieces separator text ≠ [] := by
  simp [pieces, List.splitOn_ne_nil]

theorem not_mem_of_mem_pieces
    {text piece : String}
    (member : piece ∈ pieces separator text) :
    separator ∉ piece.toList := by
  rcases List.mem_map.mp member with ⟨characters, cut, rfl⟩
  rw [String.toList_ofList]
  exact not_mem_of_mem_splitOn cut

/-- Joining the pieces of a text gives the text back. -/
theorem intercalate_pieces (separator : Char) (text : String) :
    (String.singleton separator).intercalate (pieces separator text) = text := by
  have characters :
      (pieces separator text).map String.toList =
        text.toList.splitOn separator := by
    simp [pieces, Function.comp_def]
  apply String.toList_injective
  rw [String.toList_intercalate, characters, String.toList_singleton]
  exact List.intercalate_splitOn separator

/-- Pieces that are free of the separator are found again in what they are joined to. -/
theorem pieces_intercalate
    {list : List String}
    (nonempty : list ≠ [])
    (free : ∀ piece ∈ list, separator ∉ piece.toList) :
    pieces separator ((String.singleton separator).intercalate list) = list := by
  have cut :
      (((String.singleton separator).intercalate list).toList.splitOn separator) =
        list.map String.toList := by
    rw [String.toList_intercalate, String.toList_singleton]
    apply List.splitOn_intercalate
    · intro characters member
      rcases List.mem_map.mp member with ⟨piece, piece_member, rfl⟩
      exact free piece piece_member
    · simpa using nonempty
  rw [pieces, cut, List.map_map]
  simp [Function.comp_def]

/-- The pieces of a text are the only ones that it can be joined from. -/
theorem pieces_eq_iff {text : String} {list : List String} :
    pieces separator text = list ↔
      list ≠ [] ∧
        (∀ piece ∈ list, separator ∉ piece.toList) ∧
          text = (String.singleton separator).intercalate list := by
  constructor
  · rintro rfl
    exact
      ⟨pieces_ne_nil separator text, fun _ => not_mem_of_mem_pieces,
        (intercalate_pieces separator text).symm⟩
  · rintro ⟨nonempty, free, rfl⟩
    exact pieces_intercalate nonempty free

theorem pieces_append (separator : Char) (first second : String) :
    pieces separator (first ++ String.singleton separator ++ second) =
      pieces separator first ++ pieces separator second := by
  have characters :
      (first ++ String.singleton separator ++ second).toList =
        first.toList ++ separator :: second.toList := by
    simp
  rw [pieces, characters, List.splitOn_append_cons_self, List.map_append]
  rfl

/-- A text has one piece more than it has separators. -/
theorem length_pieces (separator : Char) (text : String) :
    (pieces separator text).length = text.toList.count separator + 1 := by
  rw [pieces, List.length_map]
  generalize text.toList = characters
  induction characters with
  | nil =>
      rfl
  | cons character rest induction =>
      rw [List.splitOn_cons_eq_if_modifyHead, List.count_cons]
      split
      · rw [List.length_cons, induction]
      · rw [List.length_modifyHead, induction, Nat.add_zero]

/-- A text without separators is its own only piece. -/
theorem pieces_of_free {text : String} (free : separator ∉ text.toList) :
    pieces separator text = [text] := by
  rw [pieces, List.splitOn_eq_singleton free, List.map_singleton,
    String.ofList_toList]

/-! ## Texts put together without a separator -/

theorem intercalate_append_cons
    (joint : String)
    (earlier : List String)
    (last first : String)
    (later : List String) :
    joint.intercalate (earlier ++ (last ++ first) :: later) =
      joint.intercalate (earlier ++ [last]) ++
        joint.intercalate (first :: later) := by
  induction earlier with
  | nil =>
      cases later with
      | nil =>
          simp
      | cons next rest =>
          simp [String.intercalate_cons_of_ne_nil, String.append_assoc]
  | cons piece rest induction =>
      have joined : rest ++ (last ++ first) :: later ≠ [] := by simp
      have ended : rest ++ [last] ≠ [] := by simp
      rw [List.cons_append, List.cons_append,
        String.intercalate_cons_of_ne_nil joined,
        String.intercalate_cons_of_ne_nil ended, induction]
      simp only [String.append_assoc]

/--
Where two texts meet without a separator, the last piece of the one goes on as
the first piece of the other.
-/
theorem pieces_append_of_pieces
    {text other : String}
    {earlier later : List String}
    {last first : String}
    (text_pieces : pieces separator text = earlier ++ [last])
    (other_pieces : pieces separator other = first :: later) :
    pieces separator (text ++ other) = earlier ++ (last ++ first) :: later := by
  rcases pieces_eq_iff.mp text_pieces with ⟨_, text_free, text_eq⟩
  rcases pieces_eq_iff.mp other_pieces with ⟨_, other_free, other_eq⟩
  rw [pieces_eq_iff]
  refine ⟨List.append_ne_nil_of_right_ne_nil _ (List.cons_ne_nil _ _), ?_, ?_⟩
  · intro piece member
    rcases List.mem_append.mp member with before | behind
    · exact text_free piece (List.mem_append_left _ before)
    · rcases List.mem_cons.mp behind with rfl | after
      · rw [String.toList_append, List.mem_append, not_or]
        exact
          ⟨text_free last (List.mem_append_right _ List.mem_cons_self),
            other_free first List.mem_cons_self⟩
      · exact other_free piece (List.mem_cons_of_mem _ after)
  · rw [intercalate_append_cons, ← text_eq, ← other_eq]

end GatedLog.Text
