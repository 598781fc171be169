import GatedLog.Session.Run

/-!
# The last choice of each field decides

A configuration is put together choice by choice, in any order and as often as
its caller likes.  A choice sets one field and keeps the three others.  So of
the choices of a field the last one decides, and where there is none the field
stays as it was at first.  What is run in the end is a single initialization
with the fields that were decided in this way.

The order of two choices that set different fields is of no account.  All that
counts of a sequence of choices is, field by field, the sequence of those that
set it.
-/

namespace GatedLog

namespace Configuration

/-! ## What a choice says -/

/-- The fields of a configuration. -/
inductive Field where
  | program
  | tags
  | logger
  | aborter
  deriving DecidableEq, Repr

namespace Choice

/-- The field that a choice sets. -/
def field : Choice → Field
  | .arguments _ => .program
  | .program _ => .program
  | .tags _ => .tags
  | .noTags => .tags
  | .logger _ => .logger
  | .aborter _ => .aborter

/-- What a choice says of the program; it may say that there is no name for it. -/
def program? : Choice → Option (Option String)
  | .arguments given => some given.head?
  | .program path => some (some path)
  | _ => none

/-- What a choice says of the tags; it may say that there are none. -/
def tags? : Choice → Option (Option String)
  | .tags given => some (some given)
  | .noTags => some none
  | _ => none

/-- What a choice says of the logger. -/
def logger? : Choice → Option Logger
  | .logger chosen => some chosen
  | _ => none

/-- What a choice says of the aborter. -/
def aborter? : Choice → Option Aborter
  | .aborter chosen => some chosen
  | _ => none

end Choice

/-! ## What the last choice says -/

/-- What the last of those choices says that say anything of some kind. -/
def lastSaid
    {Value : Type}
    (says? : Choice → Option Value)
    (choices : List Choice) :
    Option Value :=
  (choices.filterMap says?).getLast?

/-- The path of the program by the last choice of it; without one there is no path. -/
def programOf (choices : List Choice) : Option String :=
  (lastSaid Choice.program? choices).getD none

/-- The logger by the last choice of it, or else the terminal without colours. -/
def loggerOf (choices : List Choice) : Logger :=
  (lastSaid Choice.logger? choices).getD (.terminal false)

/-- The aborter by the last choice of it, or else the one that ends the process. -/
def aborterOf (choices : List Choice) : Aborter :=
  (lastSaid Choice.aborter? choices).getD .terminate

variable {choices others : List Choice}

theorem lastSaid_cons
    {Value : Type}
    (says? : Choice → Option Value)
    (choice : Choice)
    (choices : List Choice) :
    lastSaid says? (choice :: choices) =
      (lastSaid says? choices).or (says? choice) := by
  cases said : says? choice with
  | none =>
      rw [lastSaid, List.filterMap_cons_none said, Option.or_none]
      rfl
  | some value =>
      rw [lastSaid, List.filterMap_cons_some said, List.getLast?_cons, ← lastSaid]
      cases lastSaid says? choices <;> rfl

/--
A field that each choice sets to what it says, or keeps if it says nothing, is
in the end what the last choice says.
-/
theorem field_ofChoices
    {Value : Type}
    {field : Configuration → Value}
    {says? : Choice → Option Value}
    (sets :
      ∀ (configuration : Configuration) (choice : Choice),
        field (configuration.choose choice) =
          (says? choice).getD (field configuration))
    (choices : List Choice) :
    field (ofChoices choices) =
      (lastSaid says? choices).getD (field standard) := by
  have goes :
      ∀ configuration : Configuration,
        field (choices.foldl choose configuration) =
          (lastSaid says? choices).getD (field configuration) := by
    induction choices with
    | nil =>
        intro configuration
        rfl
    | cons choice rest induction =>
        intro configuration
        rw [List.foldl_cons, induction, sets, lastSaid_cons]
        cases lastSaid says? rest <;> rfl
  exact goes standard

theorem program_ofChoices (choices : List Choice) :
    (ofChoices choices).program = programOf choices := by
  refine @field_ofChoices _ Configuration.program Choice.program? ?_ choices
  intro configuration choice
  cases choice <;> rfl

theorem logger_ofChoices (choices : List Choice) :
    (ofChoices choices).logger = loggerOf choices := by
  refine @field_ofChoices _ Configuration.logger Choice.logger? ?_ choices
  intro configuration choice
  cases choice <;> rfl

theorem aborter_ofChoices (choices : List Choice) :
    (ofChoices choices).aborter = aborterOf choices := by
  refine @field_ofChoices _ Configuration.aborter Choice.aborter? ?_ choices
  intro configuration choice
  cases choice <;> rfl

/-- The tags come from the environment as long as no choice is made of them. -/
theorem tags_ofChoices (choices : List Choice) :
    (ofChoices choices).tags =
      ((lastSaid Choice.tags? choices).map TagsSource.given).getD
        .environment := by
  have said :
      lastSaid (fun choice => choice.tags?.map TagsSource.given) choices =
        (lastSaid Choice.tags? choices).map TagsSource.given := by
    rw [lastSaid, lastSaid, ← List.getLast?_map, List.map_filterMap]
  rw [← said]
  refine @field_ofChoices _ Configuration.tags _ ?_ choices
  intro configuration choice
  cases choice <;> rfl

/-! ## One initialization -/

/-- The step that initializes a context at once with what the last choices say. -/
def directly (choices : List Choice) : Session.Step :=
  match lastSaid Choice.tags? choices with
  | none =>
      .setUpFromEnvironment
        (programOf choices) (loggerOf choices) (aborterOf choices)
  | some tags =>
      .setUp
        ⟨programOf choices, .ok tags, loggerOf choices, aborterOf choices⟩

theorem run_of_untagged (untagged : lastSaid Choice.tags? choices = none) :
    (ofChoices choices).run =
      Initialization.runFromEnvironment
        (programOf choices) (loggerOf choices) (aborterOf choices) := by
  have source : (ofChoices choices).tags = .environment := by
    rw [tags_ofChoices, untagged]
    rfl
  simp only [run, source, program_ofChoices, logger_ofChoices,
    aborter_ofChoices]

theorem run_of_tagged
    {tags : Option String}
    (tagged : lastSaid Choice.tags? choices = some tags) :
    (ofChoices choices).run =
      Initialization.run
        ⟨programOf choices, .ok tags, loggerOf choices,
          aborterOf choices⟩ := by
  have source : (ofChoices choices).tags = .given tags := by
    rw [tags_ofChoices, tagged]
    rfl
  simp only [run, source, program_ofChoices, logger_ofChoices,
    aborter_ofChoices]

theorem perform_directly (choices : List Choice) :
    Session.perform (directly choices) = Session.perform (.configure choices) := by
  cases said : lastSaid Choice.tags? choices with
  | none =>
      simp only [directly, said, Session.perform, run_of_untagged said]
  | some tags =>
      simp only [directly, said, Session.perform, run_of_tagged said]

/-! ## Choices in another order -/

/-- What is said of a field depends on the choices of that field only. -/
theorem lastSaid_of_filter
    {Value : Type}
    {says? : Choice → Option Value}
    {field : Field}
    (apart : ∀ choice : Choice, choice.field ≠ field → says? choice = none)
    (same :
      others.filter (fun choice => choice.field = field) =
        choices.filter (fun choice => choice.field = field)) :
    lastSaid says? others = lastSaid says? choices := by
  have filtered :
      ∀ choices : List Choice,
        (choices.filter fun choice => choice.field = field).filterMap says? =
          choices.filterMap says? := by
    intro choices
    rw [List.filterMap_filter]
    congr 1
    funext choice
    by_cases here : choice.field = field
    · simp [here]
    · simp [here, apart choice here]
  rw [lastSaid, lastSaid, ← filtered others, same, filtered choices]

theorem ofChoices_of_filter
    (same :
      ∀ field : Field,
        others.filter (fun choice => choice.field = field) =
          choices.filter (fun choice => choice.field = field)) :
    ofChoices others = ofChoices choices := by
  have program :
      lastSaid Choice.program? others = lastSaid Choice.program? choices :=
    lastSaid_of_filter
      (by intro choice; cases choice <;> simp [Choice.field, Choice.program?])
      (same .program)
  have tags : lastSaid Choice.tags? others = lastSaid Choice.tags? choices :=
    lastSaid_of_filter
      (by intro choice; cases choice <;> simp [Choice.field, Choice.tags?])
      (same .tags)
  have logger :
      lastSaid Choice.logger? others = lastSaid Choice.logger? choices :=
    lastSaid_of_filter
      (by intro choice; cases choice <;> simp [Choice.field, Choice.logger?])
      (same .logger)
  have aborter :
      lastSaid Choice.aborter? others = lastSaid Choice.aborter? choices :=
    lastSaid_of_filter
      (by intro choice; cases choice <;> simp [Choice.field, Choice.aborter?])
      (same .aborter)
  have fields :
      ∀ first second : Configuration,
        first.program = second.program →
          first.tags = second.tags →
            first.logger = second.logger →
              first.aborter = second.aborter → first = second := by
    rintro ⟨_, _, _, _⟩ ⟨_, _, _, _⟩ rfl rfl rfl rfl
    rfl
  apply fields
  · rw [program_ofChoices, program_ofChoices, programOf, programOf, program]
  · rw [tags_ofChoices, tags_ofChoices, tags]
  · rw [logger_ofChoices, logger_ofChoices, loggerOf, loggerOf, logger]
  · rw [aborter_ofChoices, aborter_ofChoices, aborterOf, aborterOf, aborter]

/-! ## The law -/

/-- What a sequence of choices comes to, whatever their order and number. -/
structure LastChoiceLaw (choices : List Choice) : Prop where
  /-- Without a choice of tags it is an initialization from the environment. -/
  untagged :
    lastSaid Choice.tags? choices = none →
      (ofChoices choices).run =
        Initialization.runFromEnvironment
          (programOf choices) (loggerOf choices) (aborterOf choices)
  /-- Otherwise it is one with the tags of the last choice of them, if it gives any. -/
  tagged :
    ∀ tags : Option String,
      lastSaid Choice.tags? choices = some tags →
        (ofChoices choices).run =
          Initialization.run
            ⟨programOf choices, .ok tags, loggerOf choices,
              aborterOf choices⟩
  /-- In a session either can stand for the other, with the same answers to the end. -/
  interchangeable :
    ∀ (session : Session) (before after : List Session.Step),
      Session.run session (before ++ .configure choices :: after) =
        Session.run session (before ++ directly choices :: after)
  /-- Two choices in a row that set different fields can change places. -/
  commute :
    ∀ (before : List Choice) (first second : Choice) (after : List Choice),
      choices = before ++ first :: second :: after →
        first.field ≠ second.field →
          ofChoices (before ++ second :: first :: after) = ofChoices choices
  /-- So can all choices, as long as those of each field keep their order. -/
  reordered :
    ∀ others : List Choice,
      (∀ field : Field,
        others.filter (fun choice => choice.field = field) =
          choices.filter (fun choice => choice.field = field)) →
        ofChoices others = ofChoices choices

/-- Every sequence of choices obeys the law. -/
theorem lastChoiceLaw (choices : List Choice) :
    LastChoiceLaw choices where
  untagged := run_of_untagged
  tagged _ := run_of_tagged
  interchangeable session before after := by
    have steps :
        Session.runSteps session (before ++ .configure choices :: after) =
          Session.runSteps session (before ++ directly choices :: after) := by
      simp only [Session.runSteps, List.map_append, List.map_cons,
        perform_directly]
    rw [Session.run, Session.run, steps]
  commute before first second after equality different := by
    subst equality
    apply ofChoices_of_filter
    intro field
    simp only [List.filter_append, List.filter_cons, decide_eq_true_eq]
    by_cases here : first.field = field
    · have there : second.field ≠ field := fun same =>
        different (here.trans same.symm)
      rw [if_neg there, if_neg there]
    · rw [if_neg here, if_neg here]
  reordered _ := ofChoices_of_filter

/-- Arguments without a first one take the name away that was given before. -/
theorem lastChoiceLaw_of_forgotten_name :
    (ofChoices
        [.program "/bin/app", .aborter (.unwind "new" none), .tags "*:q",
          .logger (.channel "new" .main true), .arguments [],
          .tags "*:w"]).run =
      Initialization.run
        ⟨none, .ok (some "*:w"), .channel "new" .main true,
          .unwind "new" none⟩ :=
  (lastChoiceLaw _).tagged (some "*:w") rfl

end Configuration

end GatedLog
