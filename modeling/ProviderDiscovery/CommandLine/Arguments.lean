import ProviderDiscovery.CommandLine.Command
import ProviderDiscovery.Text.Segments

/-!
# A reader of arguments

The first argument names the command; options and other arguments follow in any order. An option's
value may be attached to it or follow as the next argument. An option whose value has not been
settled yet is *pending*; it is settled when the next option or other argument comes, or at the end,
so that is when a bad value is reported.

This is the reader that the program runs with. What is proved of the commands holds for any reader
that follows the declarations.
-/

namespace ProviderDiscovery.CommandLine

/-! ### One command -/

/-- What an argument that starts with dashes asks for. -/
inductive Flag where
  /-- An option that takes a value, with the value if it is attached. -/
  | value (id : String) (spec : ValueSpec) (attached : Option String)
  /-- An option that takes none. -/
  | set (id : String)
  /-- Help. -/
  | help
  /-- Something that cannot be asked for. -/
  | wrong (e : UsageError)
  deriving DecidableEq

/-- What an argument is. -/
inductive Argument where
  /-- Two dashes alone: no options follow. -/
  | escape
  /-- An option. -/
  | flag (f : Flag)
  /-- Anything else. -/
  | plain
  deriving DecidableEq

/-- An option that takes no value, with the value that is attached all the same. -/
def flagWithout (f : Flag) (attached : Option String) : Flag :=
  if attached.isSome then .wrong .tooManyValues else f

/-- An option with a long name, and the value behind the equals sign if there is one. -/
def longFlag (c : CommandSpec) (name : String) (attached : Option String) : Flag :=
  if name = "help" then flagWithout .help attached
  else
    match c.arguments.find? (·.long? = some name) with
    | some ⟨id, .option _ _ spec⟩ => .value id spec attached
    | some ⟨id, .flag _⟩ => flagWithout (.set id) attached
    | _ => .wrong .unknownArgument

/-- The value in one argument behind the short name of an option, with or without an equals sign
between. -/
def shortValue : List Char → Option String
  | [] => none
  | '=' :: value => some (String.ofList value)
  | value => some (String.ofList value)

/-- An option with a short name, and what stands behind it in the same argument. -/
def shortFlag (c : CommandSpec) (name : Char) (rest : List Char) : Flag :=
  if name = 'h' then .help
  else
    match c.arguments.find? (·.short? = some name) with
    | some ⟨id, .option _ _ spec⟩ => .value id spec (shortValue rest)
    | _ => .wrong .unknownArgument

/-- A text cut at its first equals sign. -/
def splitEquals (s : List Char) : String × Option String :=
  match s.dropWhile (· ≠ '=') with
  | [] => (String.ofList s, none)
  | _ :: value => (String.ofList (s.takeWhile (· ≠ '=')), some (String.ofList value))

/-- What an argument is to a command. One dash alone is no option. -/
def Argument.ofString (c : CommandSpec) (arg : String) : Argument :=
  match arg.toList with
  | ['-', '-'] => .escape
  | '-' :: '-' :: rest =>
    let (name, attached) := splitEquals rest
    .flag (longFlag c name attached)
  | '-' :: name :: rest => .flag (shortFlag c name rest)
  | _ => .plain

/-- What has been read of a command. -/
structure Reading where
  /-- What was given and is settled. -/
  given : Matches
  /-- An option that is not settled, with its value if it has come. -/
  pending : Option (String × ValueSpec × Option String)
  /-- Whether no options follow. -/
  escaped : Bool

namespace Reading

/-- The reading of no arguments. -/
def start (c : CommandSpec) : Reading := ⟨.bare c.name, none, false⟩

/-- Settles a value of an argument. One that takes one value may be given once, and no path may be
empty. -/
def settle (r : Reading) (id : String) (spec : ValueSpec) (value : String) :
    Except UsageError Reading :=
  if !spec.repeats && r.given.values id ≠ [] then .error .argumentConflict
  else if spec.kind = .path && value = "" then .error .invalidValue
  else .ok { r with given := r.given.add id value }

/-- Settles the pending option, if there is one. -/
def settlePending (r : Reading) : Except UsageError Reading :=
  match r.pending with
  | none => .ok r
  | some (_, _, none) => .error .invalidValue
  | some (id, spec, some value) => { r with pending := none }.settle id spec value

/-- Reads an option. -/
def readFlag (r : Reading) : Flag → Except UsageError Reading
  | .wrong e => .error e
  -- Help is shown only if what came before it is right.
  | .help => r.settlePending.bind fun _ => .error .displayHelp
  | .set id => r.settlePending.bind fun r =>
    if r.given.flags id then .error .argumentConflict else .ok { r with given := r.given.set id }
  | .value id spec none => r.settlePending.map fun r => { r with pending := some (id, spec, none) }
  | .value id spec (some value) => r.settlePending.bind fun r => r.settle id spec value

/-- Reads an argument that is no option: the value that the pending option waits for, or else an
argument of the command. -/
def readPlain (c : CommandSpec) (r : Reading) (arg : String) : Except UsageError Reading :=
  match r.pending, r.escaped with
  | some (id, spec, none), false => .ok { r with pending := some (id, spec, some arg) }
  | _, _ =>
    match c.arguments.find? (·.isPositional) with
    | some ⟨id, .positional spec⟩ =>
      if spec.repeats || r.given.values id = [] then
        r.settlePending.bind fun r => r.settle id spec arg
      else .error .unknownArgument
    | _ => .error .unknownArgument

/-- Reads one argument. -/
def read (c : CommandSpec) (r : Reading) (arg : String) : Except UsageError Reading :=
  if r.escaped then r.readPlain c arg
  else
    match Argument.ofString c arg with
    | .escape => .ok { r with escaped := true }
    | .flag f => r.readFlag f
    | .plain => r.readPlain c arg

/-- Reads arguments, one after the other. -/
def readAll (c : CommandSpec) : Reading → List String → Except UsageError Reading
  | r, [] => .ok r
  | r, arg :: rest => (r.read c arg).bind fun r => r.readAll c rest

/-- What was given, when all has been read. -/
def finish (c : CommandSpec) (r : Reading) : Except UsageError Matches :=
  r.settlePending.bind fun r =>
    if c.required.any fun id => r.given.values id = [] then .error .missingRequiredArgument
    else .ok r.given

end Reading

/-- What is given by the arguments behind the name of a command. -/
def readCommand (c : CommandSpec) (args : List String) : Except UsageError Matches :=
  ((Reading.start c).readAll c args).bind (·.finish c)

/-! ### All arguments -/

section

variable (commands : List CommandSpec)

/-- The declared command of a name. -/
def named? (name : String) : Option CommandSpec := commands.find? (·.name = name)

/-- What is answered to the arguments behind `help`: they may name one command. -/
def helpAnswer : List String → UsageError
  | [] => .displayHelp
  | name :: rest =>
    if (named? commands name).isSome || name = "help" then
      if rest = [] then .displayHelp else .invalidSubcommand
    else .invalidSubcommand

/-- What is answered to an option before any command. -/
def optionAnswer (arg : List Char) : UsageError :=
  match arg with
  | '-' :: '-' :: rest =>
    match splitEquals rest with
    | ("help", none) => .displayHelp
    | ("version", none) => .displayVersion
    | ("help", some _) | ("version", some _) => .tooManyValues
    | _ => .unknownArgument
  | '-' :: 'h' :: _ => .displayHelp
  | '-' :: 'V' :: _ => .displayVersion
  | _ => .unknownArgument

/-- Whether an argument is an option. -/
def isOption : List Char → Bool
  | '-' :: _ :: _ => true
  | _ => false

/-- The **reader** of arguments. -/
def readArguments : List String → Except UsageError Matches
  | [] => .error .displayHelpOnMissingArgumentOrSubcommand
  | "help" :: rest => .error (helpAnswer commands rest)
  | "--" :: [] => .error .displayHelpOnMissingArgumentOrSubcommand
  | "--" :: arg :: _ =>
    if (named? commands arg).isSome || arg = "help" then .error .unknownArgument
    else .error .invalidSubcommand
  | arg :: rest =>
    match named? commands arg with
    | some c => readCommand c rest
    | none =>
      if isOption arg.toList then .error (optionAnswer arg.toList)
      else .error .invalidSubcommand

end

/-- The **command** that arguments stand for. -/
def parse (args : List String) : Except UsageError Command := parseWith readArguments args

end ProviderDiscovery.CommandLine
