import GatedLog.Session.Step
import Mathlib.Data.List.Forall2

/-!
# The open records of a session, name by name

What a session does to a record under one name leaves the records under all
other names alone.  And what the records under one name hold makes no
difference to the others: two tables that differ in these records only still
differ in them only after the same change was made to both.
-/

namespace GatedLog.Session

/-- The open records of a session with their names, in the order of opening. -/
abbrev Records :=
  List (String × Record)

/-- The open records under one name, oldest first. -/
def named (id : String) (records : Records) : Records :=
  records.filter fun entry => entry.1 = id

variable
    {id name : String}
    {records : Records}
    {record : Record}

theorem named_cons_self :
    named id ((id, record) :: records) = (id, record) :: named id records := by
  simp [named]

theorem named_cons_of_ne
    (different : name ≠ id) :
    named id ((name, record) :: records) = named id records := by
  simp [named, different]

/-- A name stands for its oldest record. -/
theorem lookup_eq_head? (id : String) (records : Records) :
    records.lookup id = (named id records).head?.map Prod.snd := by
  induction records with
  | nil =>
      rfl
  | cons entry rest induction =>
      rcases entry with ⟨name, record⟩
      by_cases same : name = id
      · subst same
        simp [named]
      · have other : (id == name) = false := by
          simp [Ne.symm same]
        rw [named_cons_of_ne same, List.lookup_cons, other]
        exact induction

theorem named_eq_nil_of_lookup
    (closed : records.lookup id = none) :
    named id records = [] := by
  rw [lookup_eq_head?] at closed
  simpa using closed

theorem named_replaceRecord_self (id : String) (record : Record) (records : Records) :
    named id (replaceRecord id record records) =
      match named id records with
      | [] => []
      | _ :: rest => (id, record) :: rest := by
  induction records with
  | nil =>
      rfl
  | cons entry rest induction =>
      rcases entry with ⟨name, old⟩
      by_cases same : name = id
      · subst same
        simp only [replaceRecord, if_true, named_cons_self]
      · simp only [replaceRecord, if_neg same, named_cons_of_ne same]
        exact induction

theorem named_replaceRecord_of_ne
    (different : name ≠ id)
    (record : Record)
    (records : Records) :
    named id (replaceRecord name record records) = named id records := by
  induction records with
  | nil =>
      rfl
  | cons entry rest induction =>
      rcases entry with ⟨other, old⟩
      by_cases same : other = name
      · subst same
        simp only [replaceRecord, if_true, named_cons_of_ne different]
      · by_cases here : other = id
        · subst here
          simp only [replaceRecord, if_neg same, named_cons_self, induction]
        · simp only [replaceRecord, if_neg same, named_cons_of_ne here, induction]

theorem named_eraseP_self (id : String) (records : Records) :
    named id (records.eraseP fun entry => entry.1 == id) =
      (named id records).tail := by
  induction records with
  | nil =>
      rfl
  | cons entry rest induction =>
      rcases entry with ⟨name, record⟩
      by_cases same : name = id
      · subst same
        simp [named]
      · rw [List.eraseP_cons_of_neg (by simpa using same),
          named_cons_of_ne same, named_cons_of_ne same, induction]

theorem named_eraseP_of_ne
    (different : name ≠ id)
    (records : Records) :
    named id (records.eraseP fun entry => entry.1 == name) =
      named id records := by
  induction records with
  | nil =>
      rfl
  | cons entry rest induction =>
      rcases entry with ⟨other, record⟩
      by_cases same : other = name
      · subst same
        rw [List.eraseP_cons_of_pos (by simp), named_cons_of_ne different]
      · rw [List.eraseP_cons_of_neg (by simpa using same)]
        by_cases here : other = id
        · subst here
          rw [named_cons_self, named_cons_self, induction]
        · rw [named_cons_of_ne here, named_cons_of_ne here, induction]

/-! ## Tables that differ under one name only -/

/-- The same entry, but for what is recorded under one name. -/
def SameApart (id : String) (first second : String × Record) : Prop :=
  first.1 = second.1 ∧ (first.1 ≠ id → first.2 = second.2)

/-- The same records under the same names, but for those under one of them. -/
abbrev AlikeApart (id : String) : Records → Records → Prop :=
  List.Forall₂ (SameApart id)

section Alike

variable {first second : Records}

/-- A name is in both tables or in neither, with the same record but for one name. -/
theorem AlikeApart.lookup_cases
    (alike : AlikeApart id first second)
    (name : String) :
    (first.lookup name = none ∧ second.lookup name = none) ∨
      ∃ old new,
        first.lookup name = some old ∧
          second.lookup name = some new ∧ (name ≠ id → old = new) := by
  induction alike with
  | nil =>
      exact Or.inl ⟨rfl, rfl⟩
  | @cons head other _ _ same _ induction =>
      rcases head with ⟨key, record⟩
      rcases other with ⟨otherKey, otherRecord⟩
      rcases same with ⟨rfl, equal⟩
      rw [List.lookup_cons, List.lookup_cons]
      cases found : name == key with
      | true =>
          have key_eq : name = key := by simpa using found
          refine Or.inr ⟨record, otherRecord, rfl, rfl, ?_⟩
          intro different
          exact equal (key_eq ▸ different)
      | false =>
          exact induction

theorem AlikeApart.lookup_of_ne
    (alike : AlikeApart id first second)
    (different : name ≠ id) :
    first.lookup name = second.lookup name := by
  rcases alike.lookup_cases name with ⟨missing, otherMissing⟩ | found
  · rw [missing, otherMissing]
  · rcases found with ⟨old, new, present, otherPresent, same⟩
    rw [present, otherPresent, same different]

theorem AlikeApart.replaceRecord
    {old new : Record}
    (alike : AlikeApart id first second)
    (same : name ≠ id → old = new) :
    AlikeApart id (replaceRecord name old first) (replaceRecord name new second) := by
  induction alike with
  | nil =>
      exact .nil
  | @cons head other _ _ entries rest induction =>
      have names := entries.1
      by_cases found : head.1 = name
      · have otherFound : other.1 = name := names ▸ found
        simp only [Session.replaceRecord, if_pos found, if_pos otherFound]
        exact .cons ⟨rfl, same⟩ rest
      · have otherMissed : ¬other.1 = name := names ▸ found
        simp only [Session.replaceRecord, if_neg found, if_neg otherMissed]
        exact .cons entries induction

theorem AlikeApart.eraseP
    (alike : AlikeApart id first second)
    (name : String) :
    AlikeApart id
      (first.eraseP fun entry => entry.1 == name)
      (second.eraseP fun entry => entry.1 == name) := by
  induction alike with
  | nil =>
      exact .nil
  | @cons head other _ _ entries rest induction =>
      have names := entries.1
      by_cases found : head.1 = name
      · have otherFound : other.1 = name := names ▸ found
        rw [List.eraseP_cons_of_pos (by simpa using found),
          List.eraseP_cons_of_pos (by simpa using otherFound)]
        exact rest
      · have otherMissed : ¬other.1 = name := names ▸ found
        rw [List.eraseP_cons_of_neg (by simpa using found),
          List.eraseP_cons_of_neg (by simpa using otherMissed)]
        exact .cons entries induction

theorem AlikeApart.append
    {entry other : String × Record}
    (alike : AlikeApart id first second)
    (same : SameApart id entry other) :
    AlikeApart id (first ++ [entry]) (second ++ [other]) := by
  induction alike with
  | nil =>
      exact .cons same .nil
  | cons entries rest induction =>
      exact .cons entries induction

theorem AlikeApart.refl (id : String) (records : Records) :
    AlikeApart id records records := by
  induction records with
  | nil =>
      exact .nil
  | cons entry rest induction =>
      exact .cons ⟨rfl, fun _ => rfl⟩ induction

end Alike

end GatedLog.Session
