import GatedLog.Tags

/-!
# Which tags are refused, and with what report

Tags are refused exactly if one of their segments is not a token, and the first
such segment is the one in the report.  There is always a segment, so tags
without any bad one have a last token and stand for its threshold.
-/

namespace GatedLog.Tags

/-- The first segment of some tags that is not a token. -/
def firstBad? (tags : String) : Option String :=
  (segments tags).find? fun token => (parseToken? token).isNone

theorem segments_ne_nil (tags : String) :
    segments tags ≠ [] := by
  simp [segments, List.splitOn_ne_nil]

theorem lastLevel_of_bad
    {tokens : List String}
    {token : String}
    (found :
      (tokens.find? fun token => (parseToken? token).isNone) = some token)
    (earlier : Option Severity) :
    lastLevel earlier tokens = .error token := by
  induction tokens generalizing earlier with
  | nil =>
      cases found
  | cons head rest induction =>
      cases level : parseToken? head with
      | none =>
          simp only [List.find?_cons, level, Option.isNone_none,
            Option.some.injEq] at found
          subst found
          simp only [lastLevel, level]
      | some severity =>
          simp only [List.find?_cons, level, Option.isNone_some] at found
          simp only [lastLevel, level]
          exact induction found (some severity)

/-- Of tokens without a bad one the last one decides. -/
theorem lastLevel_of_good
    {tokens : List String}
    (good : (tokens.find? fun token => (parseToken? token).isNone) = none)
    (nonempty : tokens ≠ [])
    (earlier : Option Severity) :
    ∃ severity,
      tokens.getLast?.bind parseToken? = some severity ∧
        lastLevel earlier tokens = .ok (some severity) := by
  induction tokens generalizing earlier with
  | nil =>
      exact absurd rfl nonempty
  | cons head rest induction =>
      cases level : parseToken? head with
      | none =>
          simp [level] at good
      | some severity =>
          simp only [List.find?_cons, level, Option.isNone_some] at good
          simp only [lastLevel, level]
          cases rest with
          | nil =>
              exact ⟨severity, level, rfl⟩
          | cons next others =>
              rw [List.getLast?_cons_cons]
              exact induction good (List.cons_ne_nil _ _) (some severity)

theorem parse_of_bad
    {tags token : String}
    (found : firstBad? tags = some token) :
    parse tags = .error (.unsupported token tags) := by
  simp only [parse, lastLevel_of_bad found none]

theorem parse_of_good
    {tags : String}
    (good : firstBad? tags = none) :
    ∃ severity, parse tags = .ok severity := by
  rcases lastLevel_of_good good (segments_ne_nil tags) none with
    ⟨severity, _, last⟩
  exact ⟨severity, by simp only [parse, last]⟩

/-- Refused tags are reported with their first bad segment. -/
theorem parse_eq_error_iff
    {tags : String}
    {problem : TagsError} :
    parse tags = .error problem ↔
      ∃ token,
        firstBad? tags = some token ∧ problem = .unsupported token tags := by
  constructor
  · intro refused
    cases found : firstBad? tags with
    | none =>
        rcases parse_of_good found with ⟨severity, parsed⟩
        rw [parsed] at refused
        cases refused
    | some token =>
        rw [parse_of_bad found] at refused
        cases refused
        exact ⟨token, rfl, rfl⟩
  · rintro ⟨token, found, rfl⟩
    exact parse_of_bad found

end GatedLog.Tags
