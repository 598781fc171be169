import GatedLog.Initialization

/-!
# Configurations

A configuration is an initialization that is put together choice by choice.  It
starts from the terminal logger without colours, the aborter that ends the
process, no name, and the tags of the environment.  Each choice sets one field,
and a later choice replaces an earlier one of the same field.
-/

namespace GatedLog

/-- Where the tags of a configuration come from. -/
inductive TagsSource where
  /-- From the environment, at the time of the initialization. -/
  | environment
  /-- From the configuration itself, which may say that there are none. -/
  | given (tags : Option String)
  deriving DecidableEq, Repr

/-- An initialization under construction. -/
structure Configuration where
  program : Option String
  tags : TagsSource
  logger : Logger
  aborter : Aborter

namespace Configuration

/-- The configuration before any choice. -/
def standard : Configuration where
  program := none
  tags := .environment
  logger := .terminal false
  aborter := .terminate

/-- One step in putting together a configuration. -/
inductive Choice where
  /-- The name comes from the first of these arguments; no arguments, no name. -/
  | arguments (arguments : List String)
  /-- The path of the program is this. -/
  | program (path : String)
  /-- The tags are these. -/
  | tags (tags : String)
  /-- There are no tags, whatever the environment says. -/
  | noTags
  | logger (logger : Logger)
  | aborter (aborter : Aborter)

/-- A configuration after one more choice. -/
def choose (configuration : Configuration) : Choice → Configuration
  | .arguments arguments => { configuration with program := arguments.head? }
  | .program path => { configuration with program := some path }
  | .tags tags => { configuration with tags := .given (some tags) }
  | .noTags => { configuration with tags := .given none }
  | .logger logger => { configuration with logger := logger }
  | .aborter aborter => { configuration with aborter := aborter }

/-- The configuration that a sequence of choices comes to. -/
def ofChoices (choices : List Choice) : Configuration :=
  choices.foldl choose standard

/-- Initializes the context as configured. -/
def run (configuration : Configuration) : Operation Host Unit :=
  match configuration.tags with
  | .environment =>
    Initialization.runFromEnvironment
      configuration.program configuration.logger configuration.aborter
  | .given tags =>
    Initialization.run
      ⟨configuration.program, .ok tags, configuration.logger, configuration.aborter⟩

end Configuration

end GatedLog
