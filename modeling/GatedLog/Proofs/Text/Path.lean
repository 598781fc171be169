import GatedLog.Text.Path
import Mathlib.Data.List.TakeWhile

/-!
# A path has one last component

A list can be cut behind its last separator, or in front of everything if it
has none.  There is no other way to cut it into a part that ends with a
separator, unless it is empty, and a part without separators.  The last
component of a path is the second part of that cut.

Where texts are kept as bytes, the separator is found by its byte offset, and
the text from the next offset on is taken.  Such a text can be cut only between
two characters, so it needs a proof of its own that the next offset is not
inside a character, and not beyond the end.
-/

namespace GatedLog.Text

/-! ## Cuts behind the last separator -/

section Cuts

variable
    {Element : Type}
    {separator : Element}
    {whole directory name : List Element}

/-- A list ends with a separator, unless it is empty. -/
def Closed (separator : Element) (elements : List Element) : Prop :=
  elements = [] ∨ ∃ parent, elements = parent ++ [separator]

/-- A list is cut into a part that ends with a separator and a part that has none. -/
structure CutsLast
    (separator : Element)
    (whole directory name : List Element) :
    Prop where
  joined : whole = directory ++ name
  closed : Closed separator directory
  free : separator ∉ name

variable [DecidableEq Element]

theorem afterLast_of_free (free : separator ∉ name) :
    afterLast separator name = name := by
  have kept :
      name.reverse.takeWhile (fun element => element ≠ separator) =
        name.reverse := by
    rw [List.takeWhile_eq_self_iff]
    intro element member
    rw [decide_eq_true_iff]
    rintro rfl
    exact free (List.mem_reverse.mp member)
  rw [afterLast, kept, List.reverse_reverse]

/-- What precedes a separator does not matter. -/
theorem afterLast_append_cons (parent rest : List Element) :
    afterLast separator (parent ++ separator :: rest) =
      afterLast separator rest := by
  have stopped :
      (separator :: parent.reverse).takeWhile
          (fun element => element ≠ separator) = [] := by
    simp
  rw [afterLast, List.reverse_append, List.reverse_cons, List.append_assoc,
    List.singleton_append, List.takeWhile_append, stopped, List.append_nil]
  split
  · next all =>
      rw [afterLast, (List.takeWhile_prefix _).eq_of_length all]
  · rfl

/-- However a list is cut, what is cut off is the part after its last separator. -/
theorem CutsLast.name_eq (cuts : CutsLast separator whole directory name) :
    afterLast separator whole = name := by
  rcases cuts.closed with empty | ⟨parent, ended⟩
  · rw [cuts.joined, empty, List.nil_append]
    exact afterLast_of_free cuts.free
  · rw [cuts.joined, ended, List.append_assoc, List.singleton_append,
      afterLast_append_cons]
    exact afterLast_of_free cuts.free

/-- Nothing is cut off exactly if the list ends with a separator, or is empty. -/
theorem CutsLast.name_eq_nil_iff
    (cuts : CutsLast separator whole directory name) :
    name = [] ↔ Closed separator whole := by
  constructor
  · rintro rfl
    rw [cuts.joined, List.append_nil]
    exact cuts.closed
  · intro closed
    have all : CutsLast separator whole whole [] :=
      ⟨(List.append_nil whole).symm, closed, List.not_mem_nil⟩
    rw [← cuts.name_eq, all.name_eq]

/-- Every list can be cut. -/
theorem exists_cutsLast (separator : Element) (whole : List Element) :
    ∃ directory, CutsLast separator whole directory (afterLast separator whole) := by
  refine
    ⟨(whole.reverse.dropWhile fun element => element ≠ separator).reverse,
      ?_, ?_, ?_⟩
  · rw [afterLast, ← List.reverse_append, List.takeWhile_append_dropWhile,
      List.reverse_reverse]
  · cases dropped : whole.reverse.dropWhile fun element => element ≠ separator with
    | nil =>
        exact Or.inl rfl
    | cons first rest =>
        have stops :=
          List.head_dropWhile_not (fun element => decide (element ≠ separator))
            (l := whole.reverse) (by rw [dropped]; exact List.cons_ne_nil _ _)
        simp only [dropped, List.head_cons, decide_eq_false_iff_not,
          Decidable.not_not] at stops
        rw [stops, List.reverse_cons]
        exact Or.inr ⟨rest.reverse, rfl⟩
  · intro member
    have kept := List.mem_takeWhile_imp (List.mem_reverse.mp member)
    exact of_decide_eq_true kept rfl

end Cuts

/-! ## Byte offsets -/

/-- Characters with the byte offsets at which they start, the first at a given one. -/
def offsetsFrom (start : Nat) : List Char → List (Nat × Char)
  | [] => []
  | character :: rest =>
    (start, character) :: offsetsFrom (start + character.utf8Size) rest

/-- The byte offset at which a character occurs last in a text, if it does. -/
def lastOffset? (character : Char) (text : String) : Option Nat :=
  ((offsetsFrom 0 text.toList).reverse.find? fun entry =>
    entry.2 = character).map Prod.fst

/--
The text from a byte offset on.  There is none for an offset beyond the end, or
for one inside a character.
-/
def fromOffset? (text : String) (offset : Nat) : Option String :=
  if boundary : String.Pos.Raw.IsValid text ⟨offset⟩ then
    some (text.sliceFrom (text.pos ⟨offset⟩ boundary)).copy
  else
    none

section Offsets

variable
    {character : Char}
    {parent name path : String}

theorem offsetsFrom_append (start : Nat) (first second : List Char) :
    offsetsFrom start (first ++ second) =
      offsetsFrom start first ++
        offsetsFrom (start + (String.ofList first).utf8ByteSize) second := by
  induction first generalizing start with
  | nil =>
      simp [offsetsFrom]
  | cons next rest induction =>
      rw [List.cons_append, offsetsFrom, offsetsFrom, induction,
        String.ofList_cons, String.utf8ByteSize_append,
        String.utf8ByteSize_singleton, Nat.add_assoc, List.cons_append]

theorem mem_of_mem_offsetsFrom
    {start : Nat}
    {entry : Nat × Char}
    {characters : List Char}
    (member : entry ∈ offsetsFrom start characters) :
    entry.2 ∈ characters := by
  induction characters generalizing start with
  | nil =>
      cases member
  | cons next rest induction =>
      rcases List.mem_cons.mp member with rfl | later
      · exact List.mem_cons_self
      · exact List.mem_cons_of_mem _ (induction later)

/-- In a text without the character no offset is found. -/
theorem find?_offsetsFrom_of_free
    {characters : List Char}
    (free : character ∉ characters)
    (start : Nat) :
    ((offsetsFrom start characters).reverse.find? fun entry =>
      entry.2 = character) = none := by
  rw [List.find?_eq_none]
  intro entry member found
  have inside := mem_of_mem_offsetsFrom (List.mem_reverse.mp member)
  rw [of_decide_eq_true found] at inside
  exact free inside

theorem lastOffset?_of_free (free : character ∉ name.toList) :
    lastOffset? character name = none := by
  rw [lastOffset?, find?_offsetsFrom_of_free free, Option.map_none]

/-- The offset of the last occurrence is the size of what precedes it. -/
theorem lastOffset?_append (free : character ∉ name.toList) :
    lastOffset? character (parent ++ String.singleton character ++ name) =
      some parent.utf8ByteSize := by
  have characters :
      (parent ++ String.singleton character ++ name).toList =
        parent.toList ++ character :: name.toList := by
    simp
  rw [lastOffset?, characters, offsetsFrom_append, offsetsFrom,
    List.reverse_append, List.reverse_cons, List.find?_append,
    List.find?_append, find?_offsetsFrom_of_free free, String.ofList_toList,
    Nat.zero_add]
  simp

/-- A text can be cut between any two parts of it. -/
theorem isValid_append (first rest : String) :
    String.Pos.Raw.IsValid (first ++ rest) ⟨first.utf8ByteSize⟩ :=
  String.Pos.Raw.isValid_iff_exists_append.mpr ⟨first, rest, rfl, rfl⟩

theorem fromOffset?_append (first rest : String) :
    fromOffset? (first ++ rest) first.utf8ByteSize = some rest := by
  have splits :
      ((first ++ rest).pos ⟨first.utf8ByteSize⟩
        (isValid_append first rest)).Splits first rest :=
    ⟨rfl, rfl⟩
  rw [fromOffset?, dif_pos (isValid_append first rest),
    (String.Pos.splits _).eq_right splits]

end Offsets

/-! ## The last component -/

/-- A path ends with a slash, unless it is empty. -/
def IsDirectory (path : String) : Prop :=
  path = "" ∨ ∃ parent, path = parent ++ "/"

section Component

variable {path directory name : String}

theorem closed_toList_iff : Closed '/' path.toList ↔ IsDirectory path := by
  constructor
  · rintro (empty | ⟨parent, ended⟩)
    · exact Or.inl (String.toList_eq_nil_iff.mp empty)
    · refine Or.inr ⟨String.ofList parent, ?_⟩
      rw [← String.ofList_toList (s := path), ended, String.ofList_append]
  · rintro (rfl | ⟨parent, rfl⟩)
    · exact Or.inl rfl
    · exact Or.inr ⟨parent.toList, String.toList_append⟩

/-- However a path is cut, what is cut off is its last component. -/
theorem basename_append
    (closed : IsDirectory directory)
    (free : '/' ∉ name.toList) :
    basename (directory ++ name) = name := by
  have cuts : CutsLast '/' (directory ++ name).toList directory.toList name.toList :=
    ⟨String.toList_append, closed_toList_iff.mpr closed, free⟩
  rw [basename, cuts.name_eq, String.ofList_toList]

/-- Every path can be cut. -/
theorem exists_basename (path : String) :
    ∃ directory,
      IsDirectory directory ∧
        '/' ∉ (basename path).toList ∧ path = directory ++ basename path := by
  rcases exists_cutsLast '/' path.toList with ⟨directory, joined, closed, free⟩
  refine ⟨String.ofList directory, ?_, ?_, ?_⟩
  · rw [← closed_toList_iff, String.toList_ofList]
    exact closed
  · rw [basename, String.toList_ofList]
    exact free
  · rw [basename, ← String.ofList_append, ← joined, String.ofList_toList]

theorem basename_of_free (free : '/' ∉ path.toList) :
    basename path = path := by
  have whole : basename ("" ++ path) = path :=
    basename_append (Or.inl rfl) free
  rwa [String.empty_append] at whole

/-- Further components in front change nothing. -/
theorem basename_append_slash (parent path : String) :
    basename (parent ++ "/" ++ path) = basename path := by
  rcases exists_basename path with ⟨directory, closed, free, joined⟩
  have longer : IsDirectory (parent ++ "/" ++ directory) := by
    rcases closed with rfl | ⟨inner, rfl⟩
    · exact Or.inr ⟨parent, String.append_empty⟩
    · exact Or.inr ⟨parent ++ "/" ++ inner, String.append_assoc.symm⟩
  have regrouped :
      parent ++ "/" ++ path = parent ++ "/" ++ directory ++ basename path :=
    (congrArg (parent ++ "/" ++ ·) joined).trans String.append_assoc.symm
  rw [regrouped, basename_append longer free]

/-- Where a slash was found, the path can be cut behind it. -/
theorem fromOffset?_of_lastOffset?
    {offset : Nat}
    (found : lastOffset? '/' path = some offset) :
    offset + 1 ≤ path.utf8ByteSize ∧
      String.Pos.Raw.IsValid path ⟨offset + 1⟩ ∧
        fromOffset? path (offset + 1) = some (basename path) := by
  rcases exists_basename path with ⟨directory, closed, free, joined⟩
  generalize basename path = name at free joined ⊢
  subst joined
  rcases closed with rfl | ⟨parent, rfl⟩
  · rw [String.empty_append, lastOffset?_of_free free] at found
    cases found
  · have at_slash :
        lastOffset? '/' (parent ++ "/" ++ name) = some parent.utf8ByteSize :=
      lastOffset?_append free
    have behind : offset + 1 = (parent ++ "/").utf8ByteSize := by
      rw [at_slash] at found
      cases found
      rw [String.utf8ByteSize_append]
      rfl
    have size :
        (parent ++ "/" ++ name).utf8ByteSize =
          (parent ++ "/").utf8ByteSize + name.utf8ByteSize :=
      String.utf8ByteSize_append
    rw [behind, size]
    exact
      ⟨Nat.le_add_right _ _, isValid_append _ name, fromOffset?_append _ name⟩

theorem basename_of_lastOffset?
    (absent : lastOffset? '/' path = none) :
    basename path = path := by
  rcases exists_basename path with ⟨directory, closed, free, joined⟩
  generalize basename path = name at free joined ⊢
  subst joined
  rcases closed with rfl | ⟨parent, rfl⟩
  · exact String.empty_append.symm
  · have at_slash :
        lastOffset? '/' (parent ++ "/" ++ name) = some parent.utf8ByteSize :=
      lastOffset?_append free
    rw [at_slash] at absent
    cases absent

end Component

/-! ## The law of components -/

/-- What the last component of a path is, whatever the path is. -/
structure ComponentLaw (path : String) : Prop where
  /-- The last component is free of slashes. -/
  free : '/' ∉ (basename path).toList
  /-- What precedes it ends with a slash, or there is nothing that precedes it. -/
  cut : ∃ directory, IsDirectory directory ∧ path = directory ++ basename path
  /-- No other way to end the path has these two properties. -/
  only :
    ∀ directory name : String,
      IsDirectory directory →
        '/' ∉ name.toList →
          path = directory ++ name →
            name = basename path
  /-- The last component is its own last component. -/
  settled : basename (basename path) = basename path
  /-- Whatever is put in front of the path together with a slash makes no difference. -/
  joined : ∀ parent : String, basename (parent ++ "/" ++ path) = basename path
  /-- If no slash is found, the path is its own last component. -/
  whole : lastOffset? '/' path = none → basename path = path
  /--
  If one is found, the next byte is within the path or at its end, a character
  starts there or the path ends, and the last component is what follows.
  -/
  sliced :
    ∀ offset : Nat,
      lastOffset? '/' path = some offset →
        offset + 1 ≤ path.utf8ByteSize ∧
          String.Pos.Raw.IsValid path ⟨offset + 1⟩ ∧
            fromOffset? path (offset + 1) = some (basename path)

/-- All paths obey the law of components. -/
theorem componentLaw (path : String) : ComponentLaw path where
  free := by
    rcases exists_basename path with ⟨_, _, free, _⟩
    exact free
  cut := by
    rcases exists_basename path with ⟨directory, closed, _, joined⟩
    exact ⟨directory, closed, joined⟩
  only directory name closed free joined := by
    rw [joined, basename_append closed free]
  settled := by
    rcases exists_basename path with ⟨_, _, free, _⟩
    exact basename_of_free free
  joined parent := basename_append_slash parent path
  whole := basename_of_lastOffset?
  sliced _ := fromOffset?_of_lastOffset?

/-- Behind a slash at the very end the empty component is cut off. -/
theorem componentLaw_of_closing_slash :
    String.Pos.Raw.IsValid "ü//" ⟨4⟩ ∧ fromOffset? "ü//" 4 = some "" := by
  have found : lastOffset? '/' "ü//" = some 3 := by decide
  have component : basename "ü//" = "" := by decide
  have sliced := (componentLaw "ü//").sliced 3 found
  rw [component] at sliced
  exact sliced.2

end GatedLog.Text
