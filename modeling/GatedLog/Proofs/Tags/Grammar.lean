import GatedLog.Proofs.Tags
import GatedLog.Proofs.Text.Pieces

/-!
# The grammar of tags

There are seven tokens.  Tags are accepted if they are tokens joined by single
spaces, at least one, and then the last token decides.  All other tags are
refused, with the first piece between spaces that is not a token.  The empty
piece is one of these: it stands where a space has no neighbour on one side,
and the empty text consists of nothing else.

No token contains a space, so the pieces between spaces are the tokens of
accepted tags.  That is all there is to the proof: both sides of each statement
are read off the same pieces.
-/

namespace GatedLog.Tags

/-- All tokens, each with the threshold that it stands for. -/
def vocabulary : List (String × Severity) :=
  [("*:v", .verbose),
    ("*:d", .debug),
    ("*:i", .info),
    ("*:w", .warning),
    ("*:e", .error),
    ("*:f", .fatalWithoutAbort),
    ("*:s", .fatalWithoutAbort)]

/-- A text that is one of the tokens. -/
def IsToken (text : String) : Prop :=
  ∃ severity : Severity, (text, severity) ∈ vocabulary

/-- Tags that are tokens joined by single spaces, with the threshold of the last one. -/
def Spells (tags : String) (severity : Severity) : Prop :=
  ∃ (earlier : List String) (last : String),
    (∀ token ∈ earlier, IsToken token) ∧
      (last, severity) ∈ vocabulary ∧
        tags = " ".intercalate (earlier ++ [last])

/-! ## Tokens -/

theorem parseToken?_of_vocabulary :
    ∀ entry ∈ vocabulary, parseToken? entry.1 = some entry.2 := by
  decide

theorem parseToken?_eq_some_iff {token : String} {severity : Severity} :
    parseToken? token = some severity ↔ (token, severity) ∈ vocabulary := by
  constructor
  · intro parsed
    unfold parseToken? at parsed
    split at parsed
    · next letter characters =>
        have token_eq : token = String.ofList ['*', ':', letter] := by
          rw [← characters, String.ofList_toList]
        subst token_eq
        unfold levelOf? at parsed
        split at parsed <;> cases parsed <;> decide
    · cases parsed
  · exact parseToken?_of_vocabulary (token, severity)

theorem isToken_iff {text : String} :
    IsToken text ↔ (parseToken? text).isNone = false := by
  rw [Option.isNone_eq_false_iff, Option.isSome_iff_exists]
  exact exists_congr fun _ => parseToken?_eq_some_iff.symm

theorem IsToken.free {token : String} (isToken : IsToken token) :
    ' ' ∉ token.toList := by
  have free : ∀ entry ∈ vocabulary, ' ' ∉ entry.1.toList := by
    decide
  rcases isToken with ⟨severity, member⟩
  exact free (token, severity) member

/-- No token reaches as far as the highest severity. -/
theorem ne_fatal_of_vocabulary :
    ∀ entry ∈ vocabulary, entry.2 ≠ .fatal := by
  decide

/-! ## Segments -/

variable {tags : String}

theorem segments_eq_iff {list : List String} :
    segments tags = list ↔
      list ≠ [] ∧
        (∀ piece ∈ list, ' ' ∉ piece.toList) ∧
          tags = " ".intercalate list :=
  Text.pieces_eq_iff

theorem segments_append (first second : String) :
    segments (first ++ " " ++ second) = segments first ++ segments second :=
  Text.pieces_append ' ' first second

/-- The first bad segment, where it stands. -/
theorem firstBad?_eq_some_iff {token : String} :
    firstBad? tags = some token ↔
      ∃ before after : List String,
        segments tags = before ++ token :: after ∧
          (∀ piece ∈ before, IsToken piece) ∧ ¬ IsToken token := by
  rw [firstBad?, List.find?_eq_some_iff_append]
  constructor
  · rintro ⟨bad, before, after, split, good⟩
    refine ⟨before, after, split, ?_, ?_⟩
    · intro piece member
      exact isToken_iff.mpr (by simpa using good piece member)
    · rw [isToken_iff, bad]
      exact nofun
  · rintro ⟨before, after, split, good, bad⟩
    refine ⟨?_, before, after, split, ?_⟩
    · rw [isToken_iff] at bad
      exact eq_true_of_ne_false bad
    · intro piece member
      rw [isToken_iff.mp (good piece member)]
      rfl

theorem firstBad?_eq_none_iff :
    firstBad? tags = none ↔ ∀ piece ∈ segments tags, IsToken piece := by
  rw [firstBad?, List.find?_eq_none]
  exact forall₂_congr fun piece _ => by rw [isToken_iff, Bool.not_eq_true]

/-- Of two tags with a space between them, the first bad segment is that of either. -/
theorem firstBad?_append (first second : String) :
    firstBad? (first ++ " " ++ second) =
      (firstBad? first).or (firstBad? second) := by
  rw [firstBad?, segments_append, List.find?_append]
  rfl

theorem firstBad?_empty : firstBad? "" = some "" := by
  decide

/-! ## Tags that are accepted -/

theorem parse_eq_ok_iff_last {severity : Severity} :
    parse tags = .ok severity ↔
      firstBad? tags = none ∧
        (segments tags).getLast?.bind parseToken? = some severity := by
  cases found : firstBad? tags with
  | some token =>
      simp [parse_of_bad found]
  | none =>
      rcases lastLevel_of_good found (segments_ne_nil tags) none with
        ⟨level, of_last, last⟩
      simp [parse, last, of_last]

theorem parse_eq_ok_iff {severity : Severity} :
    parse tags = .ok severity ↔ Spells tags severity := by
  constructor
  · intro parsed
    rcases parse_eq_ok_iff_last.mp parsed with ⟨good, decided⟩
    rcases Option.bind_eq_some_iff.mp decided with ⟨last, is_last, level⟩
    rcases List.getLast?_eq_some_iff.mp is_last with ⟨earlier, split⟩
    refine
      ⟨earlier, last, ?_, parseToken?_eq_some_iff.mp level,
        (segments_eq_iff.mp split).2.2⟩
    intro token member
    apply firstBad?_eq_none_iff.mp good
    rw [split]
    exact List.mem_append_left _ member
  · rintro ⟨earlier, last, tokens, listed, tags_eq⟩
    have all_tokens : ∀ token ∈ earlier ++ [last], IsToken token := by
      intro token member
      rcases List.mem_append.mp member with before | at_last
      · exact tokens token before
      · exact List.mem_singleton.mp at_last ▸ ⟨severity, listed⟩
    have split : segments tags = earlier ++ [last] :=
      segments_eq_iff.mpr
        ⟨List.append_ne_nil_of_right_ne_nil _ (List.cons_ne_nil _ _),
          fun token member => (all_tokens token member).free, tags_eq⟩
    refine parse_eq_ok_iff_last.mpr ⟨?_, ?_⟩
    · rw [firstBad?_eq_none_iff, split]
      exact all_tokens
    · rw [split, List.getLast?_concat]
      exact parseToken?_eq_some_iff.mpr listed

/-- Tags are accepted piece by piece. -/
theorem parse_eq_ok_iff_append {first second : String} {severity : Severity} :
    parse (first ++ " " ++ second) = .ok severity ↔
      (∃ earlier, parse first = .ok earlier) ∧
        parse second = .ok severity := by
  have accepted :
      (∃ earlier, parse first = .ok earlier) ↔ firstBad? first = none := by
    constructor
    · rintro ⟨earlier, parsed⟩
      exact (parse_eq_ok_iff_last.mp parsed).1
    · exact parse_of_good
  have last :
      (segments (first ++ " " ++ second)).getLast? =
        (segments second).getLast? := by
    rw [segments_append, List.getLast?_append,
      List.getLast?_eq_some_getLast (segments_ne_nil second), Option.some_or]
  rw [accepted, parse_eq_ok_iff_last, parse_eq_ok_iff_last,
    firstBad?_append, Option.or_eq_none_iff, last, and_assoc]

/-! ## Tags that are refused -/

theorem parse_eq_error_iff_pieces {problem : TagsError} :
    parse tags = .error problem ↔
      ∃ (before : List String) (token : String) (after : List String),
        tags = " ".intercalate (before ++ token :: after) ∧
          (∀ piece ∈ before ++ token :: after, ' ' ∉ piece.toList) ∧
            (∀ piece ∈ before, IsToken piece) ∧
              ¬ IsToken token ∧ problem = .unsupported token tags := by
  rw [parse_eq_error_iff]
  constructor
  · rintro ⟨token, found, rfl⟩
    rcases firstBad?_eq_some_iff.mp found with ⟨before, after, split, good, bad⟩
    rcases segments_eq_iff.mp split with ⟨_, free, tags_eq⟩
    exact ⟨before, token, after, tags_eq, free, good, bad, rfl⟩
  · rintro ⟨before, token, after, tags_eq, free, good, bad, rfl⟩
    have split : segments tags = before ++ token :: after :=
      segments_eq_iff.mpr
        ⟨List.append_ne_nil_of_right_ne_nil _ (List.cons_ne_nil _ _),
          free, tags_eq⟩
    exact
      ⟨token, firstBad?_eq_some_iff.mpr ⟨before, after, split, good, bad⟩, rfl⟩

/-- Tokens that are joined, at least one, are accepted tags. -/
theorem exists_spells_of_tokens
    {tokens : List String}
    (nonempty : tokens ≠ [])
    (good : ∀ token ∈ tokens, IsToken token) :
    ∃ severity, Spells (" ".intercalate tokens) severity := by
  rcases List.eq_nil_or_concat tokens with rfl | ⟨earlier, last, rfl⟩
  · exact absurd rfl nonempty
  · rw [List.concat_eq_append] at good ⊢
    rcases good last List.mem_concat_self with ⟨severity, listed⟩
    exact
      ⟨severity, earlier, last,
        fun token member => good token (List.mem_append_left _ member),
        listed, rfl⟩

/-- Between two spaces in a row there is an empty piece. -/
theorem doubled_space (first second : String) :
    first ++ "  " ++ second = first ++ " " ++ ("" ++ " " ++ second) := by
  have spaces : "  " = " " ++ " " := rfl
  rw [spaces, String.empty_append]
  simp only [String.append_assoc]

/-- Where a space lacks a neighbour there is an empty segment, and nowhere else. -/
theorem firstBad?_eq_empty_iff :
    firstBad? tags = some "" ↔
      tags = "" ∨
        (∃ rest, tags = " " ++ rest) ∨
          (∃ good severity, Spells good severity ∧ tags = good ++ " ") ∨
            ∃ good severity rest,
              Spells good severity ∧ tags = good ++ "  " ++ rest := by
  constructor
  · intro found
    rcases firstBad?_eq_some_iff.mp found with ⟨before, after, split, good, _⟩
    have tags_eq := (segments_eq_iff.mp split).2.2
    by_cases first : before = []
    · subst first
      by_cases last : after = []
      · subst last
        exact Or.inl tags_eq
      · rw [List.nil_append, String.intercalate_cons_of_ne_nil last,
          String.empty_append] at tags_eq
        exact Or.inr (Or.inl ⟨_, tags_eq⟩)
    · rcases exists_spells_of_tokens first good with ⟨severity, spells⟩
      rw [String.intercalate_append_of_ne_nil first (List.cons_ne_nil _ _)]
        at tags_eq
      by_cases last : after = []
      · subst last
        rw [String.intercalate_singleton, String.append_empty] at tags_eq
        exact Or.inr (Or.inr (Or.inl ⟨_, severity, spells, tags_eq⟩))
      · rw [String.intercalate_cons_of_ne_nil last, ← doubled_space] at tags_eq
        exact Or.inr (Or.inr (Or.inr ⟨_, severity, _, spells, tags_eq⟩))
  · have accepted :
        ∀ {good : String} {severity : Severity},
          Spells good severity → firstBad? good = none :=
      fun spells => (parse_eq_ok_iff_last.mp (parse_eq_ok_iff.mpr spells)).1
    rintro (rfl | ⟨rest, rfl⟩ | ⟨good, severity, spells, rfl⟩ |
      ⟨good, severity, rest, spells, rfl⟩)
    · exact firstBad?_empty
    · have found := firstBad?_append "" rest
      rwa [firstBad?_empty, String.empty_append] at found
    · have found := firstBad?_append good ""
      rwa [accepted spells, firstBad?_empty, String.append_empty] at found
    · rw [doubled_space, firstBad?_append, accepted spells, firstBad?_append,
        firstBad?_empty]
      rfl

theorem parse_eq_error_empty_iff :
    parse tags = .error (.unsupported "" tags) ↔ firstBad? tags = some "" := by
  simp [parse_eq_error_iff]

/-! ## The law -/

/-- What becomes of tags, whatever they are. -/
structure GrammarLaw (tags : String) : Prop where
  /-- Tokens joined by single spaces are accepted, and nothing else is. -/
  accepted :
    ∀ severity : Severity,
      parse tags = .ok severity ↔ Spells tags severity
  /-- No tags reach the highest severity. -/
  unreached : parse tags ≠ .ok .fatal
  /--
  The others are refused with the first piece that is not a token.  The pieces
  are those between spaces: they are free of spaces and joined by single ones.
  -/
  refused :
    ∀ problem : TagsError,
      parse tags = .error problem ↔
        ∃ (before : List String) (token : String) (after : List String),
          tags = " ".intercalate (before ++ token :: after) ∧
            (∀ piece ∈ before ++ token :: after, ' ' ∉ piece.toList) ∧
              (∀ piece ∈ before, IsToken piece) ∧
                ¬ IsToken token ∧ problem = .unsupported token tags
  /--
  The empty piece is reported for empty tags, for a space at the beginning, and
  for one at the end or two in a row after what would have been accepted.
  -/
  blank :
    parse tags = .error (.unsupported "" tags) ↔
      tags = "" ∨
        (∃ rest, tags = " " ++ rest) ∨
          (∃ good severity, Spells good severity ∧ tags = good ++ " ") ∨
            ∃ good severity rest,
              Spells good severity ∧ tags = good ++ "  " ++ rest
  /-- There is always a segment, so the segments never end without a threshold. -/
  decided : lastLevel none (segments tags) ≠ .ok none
  /-- Tags with a space between them are accepted if both are, and the second decides. -/
  joined :
    ∀ (other : String) (severity : Severity),
      parse (tags ++ " " ++ other) = .ok severity ↔
        (∃ earlier, parse tags = .ok earlier) ∧ parse other = .ok severity

/-- All texts obey the grammar. -/
theorem grammarLaw (tags : String) : GrammarLaw tags where
  accepted _ := parse_eq_ok_iff
  unreached parsed := by
    rcases parse_eq_ok_iff.mp parsed with ⟨earlier, last, _, listed, _⟩
    exact ne_fatal_of_vocabulary _ listed rfl
  refused _ := parse_eq_error_iff_pieces
  blank := parse_eq_error_empty_iff.trans firstBad?_eq_empty_iff
  decided ended := by
    cases found : firstBad? tags with
    | some token =>
        rw [lastLevel_of_bad found] at ended
        cases ended
    | none =>
        rcases lastLevel_of_good found (segments_ne_nil tags) none with
          ⟨severity, _, last⟩
        rw [last] at ended
        cases ended
  joined _ _ := parse_eq_ok_iff_append

/-- The last of good tokens decides, and the first of bad ones is reported. -/
theorem grammarLaw_of_foreign_letter :
    parse "*:v *:s" = .ok .fatalWithoutAbort ∧
      parse "*:w *:é *:q" = .error (.unsupported "*:é" "*:w *:é *:q") := by
  refine ⟨((grammarLaw _).accepted _).mpr ?_, ((grammarLaw _).refused _).mpr ?_⟩
  · refine ⟨["*:v"], "*:s", ?_, by decide, by decide⟩
    intro token member
    rw [List.mem_singleton.mp member]
    exact ⟨.verbose, by decide⟩
  · refine ⟨["*:w"], "*:é", ["*:q"], by decide, by decide, ?_, ?_, rfl⟩
    · intro token member
      rw [List.mem_singleton.mp member]
      exact ⟨.warning, by decide⟩
    · rw [isToken_iff]
      decide

end GatedLog.Tags
