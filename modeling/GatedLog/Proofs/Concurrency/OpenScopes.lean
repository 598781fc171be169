import GatedLog.Proofs.Concurrency.Writes
import Mathlib.Data.List.Forall2

/-!
# Scopes and the calls that opened them

A scope is closed by name: the newest of that name which is still open.  So
which call has opened it can be read off the calls of its thread, whatever the
threads do meanwhile.  Other scopes may be closed before or after it, in any
order.
-/

namespace GatedLog.Concurrency

/-- Whether a call opens or closes scopes of a name. -/
def Call.concerns (id : String) : Call → Bool
  | .openScope other _ => other == id
  | .closeScope other => other == id
  | _ => false

/-- The scopes that the first calls of a thread leave open, each with its opening call. -/
def openScopes (own : List Call) : Nat → List (String × Nat)
  | 0 => []
  | reached + 1 =>
      match own[reached]? with
      | some call => call.keep reached (openScopes own reached)
      | none => openScopes own reached

/-- The call that opened the newest scope of a name that is still open. -/
def opener? (own : List Call) (reached : Nat) (id : String) : Option Nat :=
  (openScopes own reached).lookup id

variable
    {own : List Call}
    {reached opened position : Nat}
    {call : Call}
    {id : String}
    {severity : Severity}
    {First Second : Type}
    {Related : String × First → String × Second → Prop}
    {scopes : List (String × First)}
    {others : List (String × Second)}

theorem openScopes_succ (next : own[reached]? = some call) :
    openScopes own (reached + 1) = call.keep reached (openScopes own reached) := by
  rw [openScopes, next]

theorem openScopes_lt
    {scope : String × Nat}
    (member : scope ∈ openScopes own reached) :
    scope.2 < reached := by
  induction reached with
  | zero =>
      cases member
  | succ reached induction =>
      cases found : own[reached]? with
      | none =>
          rw [openScopes, found] at member
          exact Nat.lt_succ_of_lt (induction member)
      | some call =>
          rw [openScopes_succ found] at member
          cases call with
          | openScope id severity =>
              rcases List.mem_cons.mp member with rfl | earlier
              · exact Nat.lt_succ_self reached
              · exact Nat.lt_succ_of_lt (induction earlier)
          | closeScope id =>
              exact Nat.lt_succ_of_lt (induction (List.mem_of_mem_eraseP member))
          | _ =>
              exact Nat.lt_succ_of_lt (induction member)

theorem opener?_lt
    (opener : opener? own position id = some opened) :
    opened < position := by
  rcases List.lookup_eq_some_iff.mp opener with ⟨newer, older, scopes_eq, _⟩
  have member : (id, opened) ∈ openScopes own position := by
    rw [scopes_eq]
    exact List.mem_append_right newer List.mem_cons_self
  exact openScopes_lt member

/-- Scopes of other names may come and go. -/
theorem Call.lookup_keep
    (unconcerned : call.concerns id = false)
    (kept : First) :
    (call.keep kept scopes).lookup id = scopes.lookup id := by
  cases call with
  | openScope other severity =>
      have different : (id == other) = false := by
        rw [BEq.comm]
        exact unconcerned
      rw [keep, List.lookup_cons, different]
  | closeScope other =>
      induction scopes with
      | nil =>
          rfl
      | cons scope rest induction =>
          rw [keep, List.eraseP_cons]
          rw [keep] at induction
          cases same : scope.1 == other with
          | true =>
              have different : (id == scope.1) = false := by
                rw [beq_iff_eq.mp same, BEq.comm]
                exact unconcerned
              rw [cond_true, List.lookup_cons, different]
          | false =>
              rw [cond_false, List.lookup_cons, List.lookup_cons, induction]
  | _ =>
      rfl

/-- A scope is closed by the next call that closes one of its name. -/
theorem opener?_of_unconcerned
    (opens : own[opened]? = some (.openScope id severity))
    (earlier : opened < position)
    (unconcerned :
      ∀ (between : Nat) (call : Call),
        opened < between → between < position → own[between]? = some call →
          call.concerns id = false) :
    opener? own position id = some opened := by
  induction position with
  | zero =>
      cases earlier
  | succ position induction =>
      rcases Nat.lt_succ_iff_lt_or_eq.mp earlier with before | rfl
      · have known := induction before fun between call later less found =>
          unconcerned between call later (Nat.lt_succ_of_lt less) found
        cases found : own[position]? with
        | none =>
            rw [opener?, openScopes, found]
            exact known
        | some call =>
            rw [opener?, openScopes_succ found,
              Call.lookup_keep (unconcerned position call before
                (Nat.lt_succ_self position) found)]
            exact known
      · rw [opener?, openScopes_succ opens, Call.keep, List.lookup_cons,
          beq_self_eq_true]

/-- What is kept for the same names stays so when scopes are opened and closed. -/
theorem forall₂_keep
    {kept : First}
    {other : Second}
    (related : List.Forall₂ Related scopes others)
    (named : ∀ scope another, Related scope another → scope.1 = another.1)
    (opens :
      ∀ (id : String) (severity : Severity),
        call = .openScope id severity → Related (id, kept) (id, other)) :
    List.Forall₂ Related (call.keep kept scopes) (call.keep other others) := by
  cases call with
  | openScope id severity =>
      exact .cons (opens id severity rfl) related
  | closeScope id =>
      induction related with
      | nil =>
          exact .nil
      | @cons scope another rest further first remaining induction =>
          simp only [Call.keep, List.eraseP_cons, named scope another first]
            at induction ⊢
          cases another.1 == id with
          | true =>
              exact remaining
          | false =>
              exact .cons first induction
  | _ =>
      exact related

/-- What is found under a name is found for both, or for neither. -/
theorem lookup_forall₂
    (related : List.Forall₂ Related scopes others)
    (named : ∀ scope another, Related scope another → scope.1 = another.1)
    (id : String) :
    (scopes.lookup id = none ∧ others.lookup id = none) ∨
      ∃ first second,
        scopes.lookup id = some first ∧ others.lookup id = some second ∧
          Related (id, first) (id, second) := by
  induction related with
  | nil =>
      exact Or.inl ⟨rfl, rfl⟩
  | @cons scope another rest further first remaining induction =>
      rcases scope with ⟨name, kept⟩
      rcases another with ⟨same, other⟩
      have names : name = same := named _ _ first
      subst names
      rw [List.lookup_cons, List.lookup_cons]
      cases equal : id == name with
      | true =>
          have named_id := beq_iff_eq.mp equal
          subst named_id
          exact Or.inr ⟨kept, other, rfl, rfl, first⟩
      | false =>
          exact induction

end GatedLog.Concurrency
