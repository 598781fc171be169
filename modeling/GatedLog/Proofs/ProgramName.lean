import GatedLog.Proofs.Host
import GatedLog.Proofs.Initialization
import GatedLog.Proofs.Preservation
import GatedLog.Proofs.Text.Lossy
import GatedLog.Proofs.Text.Path

/-!
# The name of the program

The first argument of a process is a byte string of any kind.  The name of the
program is what the bytes behind its last slash show.  They show the same in
the whole argument as they do alone, for a slash ends whatever precedes it,
even a sequence that was begun and not completed.

A first initialization that is given the same argument, as a text, takes the
tag from it.  The two agree unless nothing stands behind the last slash: then
the name is a placeholder, and the tag is empty.
-/

namespace GatedLog

open Text (CutsLast Closed IsDirectory)

namespace Utf8

/-- The byte of a slash. -/
def slash : UInt8 :=
  0x2F

variable {argument directory rest : List UInt8}

theorem decodeLossy_append_slash (bytes rest : List UInt8) :
    decodeLossy (bytes ++ slash :: rest) =
      decodeLossy bytes ++ "/" ++ decodeLossy rest := by
  have ascii : '/'.toNat < 0x80 := by decide
  exact decodeLossy_append_cons ascii bytes rest

theorem slash_not_mem_decodeLossy (free : slash ∉ rest) :
    '/' ∉ (decodeLossy rest).toList := by
  have ascii : '/'.toNat < 0x80 := by decide
  exact fun member => free (mem_of_mem_decodeLossy ascii member)

/-- A directory is shown as a directory, and does not affect what is behind it. -/
theorem exists_decodeLossy_append (closed : Closed slash directory) :
    ∃ path,
      IsDirectory path ∧
        ∀ rest, decodeLossy (directory ++ rest) = path ++ decodeLossy rest := by
  rcases closed with rfl | ⟨parent, rfl⟩
  · refine ⟨"", Or.inl rfl, ?_⟩
    intro rest
    rw [List.nil_append, String.empty_append]
  · refine ⟨decodeLossy parent ++ "/", Or.inr ⟨_, rfl⟩, ?_⟩
    intro rest
    rw [List.append_assoc, List.singleton_append, decodeLossy_append_slash]

/-- To decode first and to cut first come to the same. -/
theorem basename_decodeLossy (cuts : CutsLast slash argument directory rest) :
    Text.basename (decodeLossy argument) = decodeLossy rest := by
  rcases exists_decodeLossy_append cuts.closed with ⟨path, closed, shown⟩
  rw [cuts.joined, shown]
  exact Text.basename_append closed (slash_not_mem_decodeLossy cuts.free)

end Utf8

namespace Host

open Utf8 (slash)

variable {argument directory rest : List UInt8}

theorem nameOf_of_cutsLast (cuts : CutsLast slash argument directory rest) :
    nameOf (some argument) =
      if rest = [] then unknownName else Utf8.decodeLossy rest := by
  simp only [nameOf, Utf8.basename_decodeLossy cuts, String.isEmpty_iff,
    Utf8.decodeLossy_eq_empty_iff]

end Host

namespace Initialization

theorem contextAfter_tag
    {context : Context}
    (fresh : context.initialized = false)
    (request : Initialization) :
    (request.contextAfter context).tag = request.tagAfter context.tag := by
  rw [contextAfter, apply_of_uninitialized fresh]
  simp only [stash]
  split <;> rfl

end Initialization

/-! ## The law of names -/

namespace Host

open Utf8 (slash)

/-- What the name of a program is, whatever its first argument is. -/
structure NameLaw (argument : List UInt8) : Prop where
  /-- The argument can be cut behind its last slash. -/
  cut : ∃ directory rest, CutsLast slash argument directory rest
  /-- The name is what the bytes behind the cut show, each ill-formed piece replaced. -/
  named :
    ∀ directory rest : List UInt8,
      CutsLast slash argument directory rest →
        rest ≠ [] →
          nameOf (some argument) = Utf8.decodeLossy rest ∧
            ∀ text : String,
              Utf8.decodeLossy rest = text ↔ Utf8.Reads rest text.toList
  /-- If there are none, a placeholder stands for the name. -/
  unnamed :
    ∀ directory : List UInt8,
      CutsLast slash argument directory [] →
        nameOf (some argument) = unknownName
  /-- It makes no difference whether decoding or cutting comes first. -/
  commuted :
    ∀ directory rest : List UInt8,
      CutsLast slash argument directory rest →
        Text.basename (Utf8.decodeLossy argument) = Utf8.decodeLossy rest
  free : '/' ∉ (nameOf (some argument)).toList
  nonempty : nameOf (some argument) ≠ ""
  /--
  A first initialization that is given a well-formed argument takes the tag from
  it.  That is the name, unless the argument is empty or ends with a slash; then
  it is the empty text.
  -/
  stashed :
    ∀ (text : String) (request : Initialization) (host : Host),
      argument = Utf8.encode text →
        request.program = some text →
          host.context.initialized = false →
            host.firstArgument = some argument →
              ((request.run host).state.context.tag = host.programName ↔
                  ¬ Closed slash argument) ∧
                (Closed slash argument →
                  (request.run host).state.context.tag = "")

variable {argument directory rest : List UInt8}

/-- The tag of a first initialization is what the bytes behind the last slash show. -/
theorem tag_of_cutsLast
    {text : String}
    {request : Initialization}
    {host : Host}
    (cuts : CutsLast slash (Utf8.encode text) directory rest)
    (given : request.program = some text)
    (fresh : host.context.initialized = false) :
    (request.run host).state.context.tag = Utf8.decodeLossy rest := by
  have stashed := Initialization.contextAfter_tag fresh request
  rw [Initialization.contextAfter, Initialization.tagAfter, given] at stashed
  rw [Initialization.run_context, stashed, ← Utf8.basename_decodeLossy cuts,
    Utf8.decodeLossy_encode]

/-- All first arguments obey the law of names. -/
theorem nameLaw (argument : List UInt8) : NameLaw argument := by
  rcases Text.exists_cutsLast slash argument with ⟨directory, cuts⟩
  generalize Text.afterLast slash argument = rest at cuts
  have name_eq := nameOf_of_cutsLast cuts
  constructor
  case cut =>
    exact ⟨directory, rest, cuts⟩
  case named =>
    intro other_directory other cuts_too nonempty
    refine ⟨?_, fun text => Utf8.decodeLossy_eq_iff⟩
    rw [nameOf_of_cutsLast cuts_too, if_neg nonempty]
  case unnamed =>
    intro other_directory cuts_too
    rw [nameOf_of_cutsLast cuts_too, if_pos rfl]
  case commuted =>
    intro other_directory other cuts_too
    exact Utf8.basename_decodeLossy cuts_too
  case free =>
    rw [name_eq]
    split
    · decide
    · exact Utf8.slash_not_mem_decodeLossy cuts.free
  case nonempty =>
    rw [name_eq]
    split
    · decide
    · next shown =>
        rw [ne_eq, Utf8.decodeLossy_eq_empty_iff]
        exact shown
  case stashed =>
    intro text request host encoded given fresh invoked
    subst encoded
    have tag_eq := tag_of_cutsLast cuts given fresh
    have program_eq : host.programName = nameOf (some (Utf8.encode text)) := by
      rw [programName, invoked]
    rw [tag_eq, program_eq, name_eq, ← cuts.name_eq_nil_iff]
    by_cases nothing : rest = []
    · subst nothing
      have shown : Utf8.decodeLossy [] = "" :=
        Utf8.decodeLossy_eq_empty_iff.mpr rfl
      rw [if_pos rfl, shown]
      exact
        ⟨⟨fun same => absurd same (by decide), fun some => absurd rfl some⟩,
          fun _ => rfl⟩
    · rw [if_neg nothing]
      exact ⟨⟨fun _ => nothing, fun _ => rfl⟩, fun empty => absurd empty nothing⟩

/--
A character that is cut off by the slash belongs to the directory, and a stray
byte behind the slash to the name.  Behind a slash at the end there is no name.
-/
theorem nameLaw_of_truncated_directory :
    nameOf (some [0x62, 0xE2, 0x82, 0x2F, 0x61, 0xFF]) = "a\uFFFD" ∧
      (Initialization.run
        ⟨some "é/", .ok none, .terminal false, .terminate⟩
        { around (Context.standard "old") with
          firstArgument := some [0xC3, 0xA9, 0x2F] }).state.context.tag = "" := by
  constructor
  · have cuts :
        CutsLast slash [0x62, 0xE2, 0x82, 0x2F, 0x61, 0xFF]
          [0x62, 0xE2, 0x82, 0x2F] [0x61, 0xFF] :=
      ⟨rfl, Or.inr ⟨[0x62, 0xE2, 0x82], rfl⟩, by decide⟩
    have named := (nameLaw _).named _ _ cuts (List.cons_ne_nil _ _)
    rw [named.1]
    decide
  · have stashed :=
      (nameLaw [0xC3, 0xA9, 0x2F]).stashed "é/"
        ⟨some "é/", .ok none, .terminal false, .terminate⟩
        { around (Context.standard "old") with
          firstArgument := some [0xC3, 0xA9, 0x2F] }
        rfl rfl rfl rfl
    exact stashed.2 (Or.inr ⟨[0xC3, 0xA9], rfl⟩)

end Host

end GatedLog
