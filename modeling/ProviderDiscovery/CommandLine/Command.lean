import ProviderDiscovery.CommandLine.Declaration
import ProviderDiscovery.Files.Path

/-!
# Commands

The commands of the program, their declaration, and what becomes of the matches of a command line.
-/

namespace ProviderDiscovery.CommandLine

/-- The options that say which class path a command works on. -/
structure ScopeArguments where
  /-- The entries of the class path. -/
  classPath : List Path
  /-- The installation. -/
  home : Option Path
  deriving DecidableEq

/-- A **command**. -/
inductive Command where
  /-- Checks the configuration files of some capabilities, or of all. -/
  | check (capabilities : List String) (scope : ScopeArguments)
  /-- Lists the providers of a capability. -/
  | list (capability : String) (scope : ScopeArguments) (json : Bool)
  /-- Lists the capabilities that have configuration files. -/
  | services (scope : ScopeArguments) (json : Bool)
  deriving DecidableEq

/-! ### The declaration -/

/-- The arguments that say which class path a command works on. -/
def scopeSpecs : List ArgumentSpec :=
  [⟨"class_path", .option "class-path" (some 'c') ⟨.path, true⟩⟩,
    ⟨"home", .option "home" none ⟨.path, false⟩⟩]

/-- The argument that asks for a report in JSON. -/
def jsonSpec : ArgumentSpec := ⟨"json", .flag "json"⟩

/-- The declaration of the command that checks. -/
def checkSpec : CommandSpec :=
  ⟨"check", ⟨"capabilities", .positional ⟨.text, true⟩⟩ :: scopeSpecs, []⟩

/-- The declaration of the command that lists providers. -/
def listSpec : CommandSpec :=
  ⟨"list", ⟨"capability", .positional ⟨.text, false⟩⟩ :: scopeSpecs ++ [jsonSpec], ["capability"]⟩

/-- The declaration of the command that lists capabilities. -/
def servicesSpec : CommandSpec := ⟨"services", scopeSpecs ++ [jsonSpec], []⟩

/-- The declared commands of the program. -/
def program : List CommandSpec := [checkSpec, listSpec, servicesSpec]

/-! ### Reading a command line -/

/-- The class path that was asked for. -/
def ScopeArguments.ofMatches (m : Matches) : ScopeArguments where
  classPath := (m.values "class_path").map Path.mk
  home := (m.values "home").head?.map Path.mk

/-- The command that was asked for. -/
def Command.ofMatches (m : Matches) : Except UsageError Command :=
  let scope := ScopeArguments.ofMatches m
  if m.command = "check" then .ok (.check (m.values "capabilities") scope)
  else if m.command = "list" then
    match m.values "capability" with
    | [] => .error .missingRequiredArgument
    | capability :: _ => .ok (.list capability scope (m.flags "json"))
  else if m.command = "services" then .ok (.services scope (m.flags "json"))
  else .error .invalidSubcommand

/-- The **command** that arguments stand for, as a reader reads them by the declaration of the
program. -/
def parseWith (read : ArgumentReader) (args : List String) : Except UsageError Command :=
  (read program args).bind Command.ofMatches

end ProviderDiscovery.CommandLine
