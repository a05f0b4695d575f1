/-!
# Declared commands

A program declares its commands: which arguments each of them takes, and how they are spelled.
Reading arguments by such a declaration is the business of a library of its own, so a reader of
arguments is given from outside. What it makes of a command line are its **matches**: for each
argument that is declared, what was given for it.
-/

namespace ProviderDiscovery.CommandLine

/-- What a value has to be. -/
inductive ValueKind where
  /-- Any text. -/
  | text
  /-- A path, which is not empty. -/
  | path
  deriving DecidableEq

/-- Which values an argument takes. -/
structure ValueSpec where
  /-- What each of them has to be. -/
  kind : ValueKind
  /-- Whether there may be more than one. -/
  repeats : Bool
  deriving DecidableEq

/-- How an argument is spelled. -/
inductive Spelling where
  /-- By a value that is no option. -/
  | positional (spec : ValueSpec)
  /-- By an option with a value. The option has a long name, and it may have a short one. -/
  | option (long : String) (short : Option Char) (spec : ValueSpec)
  /-- By an option without a value. -/
  | flag (long : String)
  deriving DecidableEq

/-- A **declared argument** of a command. -/
structure ArgumentSpec where
  /-- The name under which the program gets what was given. -/
  id : String
  /-- How the argument is spelled. -/
  spelling : Spelling
  deriving DecidableEq

namespace ArgumentSpec

/-- The long name of an option. -/
def long? (a : ArgumentSpec) : Option String :=
  match a.spelling with
  | .option long _ _ | .flag long => some long
  | .positional _ => none

/-- The short name of an option. -/
def short? (a : ArgumentSpec) : Option Char :=
  match a.spelling with
  | .option _ short _ => short
  | .positional _ | .flag _ => none

/-- Whether the argument is no option. -/
def isPositional (a : ArgumentSpec) : Bool :=
  match a.spelling with
  | .positional _ => true
  | .option .. | .flag _ => false

end ArgumentSpec

/-- A **declared command**. -/
structure CommandSpec where
  /-- The name of the command. -/
  name : String
  /-- The arguments that the command takes. -/
  arguments : List ArgumentSpec
  /-- Those of them that have to be given. -/
  required : List String
  deriving DecidableEq

/-- What was given on a command line. -/
structure Matches where
  /-- The name of the command. -/
  command : String
  /-- The values of an argument, in the order in which they were given. -/
  values : String → List String
  /-- Whether an option without a value was given. -/
  flags : String → Bool

namespace Matches

/-- Nothing was given but the name of the command. -/
def bare (command : String) : Matches := ⟨command, fun _ => [], fun _ => false⟩

/-- One more value of an argument was given. -/
def add (m : Matches) (id value : String) : Matches :=
  { m with values := fun i => if i = id then m.values i ++ [value] else m.values i }

/-- An option without a value was given. -/
def set (m : Matches) (id : String) : Matches :=
  { m with flags := fun i => i = id || m.flags i }

end Matches

/-- Why arguments stand for no command. -/
inductive UsageError where
  /-- Help was asked for. -/
  | displayHelp
  /-- The version was asked for. -/
  | displayVersion
  /-- No command was named, which asks for help as well. -/
  | displayHelpOnMissingArgumentOrSubcommand
  /-- Something was named that is no command. -/
  | invalidSubcommand
  /-- An option, or one argument more than the command takes, is not known. -/
  | unknownArgument
  /-- An option lacks its value, or the value is empty. -/
  | invalidValue
  /-- An option that is given a value takes none. -/
  | tooManyValues
  /-- An option is given twice that may be given once. -/
  | argumentConflict
  /-- The command needs an argument more. -/
  | missingRequiredArgument
  deriving DecidableEq

/-- The name of the kind of error. -/
def UsageError.kind : UsageError → String
  | .displayHelp => "DisplayHelp"
  | .displayVersion => "DisplayVersion"
  | .displayHelpOnMissingArgumentOrSubcommand => "DisplayHelpOnMissingArgumentOrSubcommand"
  | .invalidSubcommand => "InvalidSubcommand"
  | .unknownArgument => "UnknownArgument"
  | .invalidValue => "InvalidValue"
  | .tooManyValues => "TooManyValues"
  | .argumentConflict => "ArgumentConflict"
  | .missingRequiredArgument => "MissingRequiredArgument"

/-- A **reader of arguments**: what was given on a command line, by the declaration of a program's
commands, or why that is none of these commands. -/
abbrev ArgumentReader := List CommandSpec → List String → Except UsageError Matches

end ProviderDiscovery.CommandLine
