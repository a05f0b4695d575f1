import ProviderDiscovery.CommandLine.Arguments
import ProviderDiscovery.Report.Check
import ProviderDiscovery.Report.Providers
import ProviderDiscovery.Report.Table
import ProviderDiscovery.Settings

/-!
# Executing commands

What a command prints, and how it fails. A command works on the class path that its options and
the environment settle.
-/

namespace ProviderDiscovery.CommandLine

/-- What a command did: what it printed, and why it failed if it did. -/
structure Result where
  /-- The printed text. -/
  printed : String
  /-- The text that reports the failure. -/
  failure : Option String
  deriving DecidableEq

namespace Result

/-- A command that prints a line. -/
def line (s : String) : Result := ⟨s ++ "\n", none⟩

/-- A command that prints nothing and fails. -/
def failed (message : String) : Result := ⟨"", some message⟩

end Result

/-- What a check comes to. It fails if some file does. -/
def checkResult (report : Report.CheckReport) : Result :=
  if report.rows = [] then .line "No configuration files found."
  else
    let printed := (Result.line (Report.table (Report.checkCells report.rows))).printed
    if report.failures = 0 then ⟨printed, none⟩
    else
      ⟨printed, some (toString report.failures ++ " of " ++ toString report.rows.length ++
        " configuration files are invalid")⟩

/-- Checks the configuration files of some capabilities. -/
def runCheck (scope : Scope) (capabilities : List String) : Action Result := do
  match ← Report.check scope capabilities with
  | .error cause => return .failed cause.message
  | .ok report => return checkResult report

/-- The text that lists the providers of a capability. -/
def providersListing (capability : String) (found : List Candidate) (json : Bool) : String :=
  if json then (Report.providersJson found).render
  else if found = [] then "No providers configured for " ++ capability ++ "."
  else Report.table (Report.providerCells found)

/-- Lists the providers of a capability. -/
def runList (scope : Scope) (capability : String) (json : Bool) : Action Result := do
  match ← Report.providers scope ⟨capability⟩ with
  | .error e => return .failed e.message
  | .ok found => return .line (providersListing capability found json)

/-- The text that lists capabilities. -/
def servicesListing (scope : String) (names : List String) (json : Bool) : String :=
  if json then (Report.Json.list (names.map .text)).render
  else if names = [] then "No service configuration found in " ++ scope ++ "."
  else Report.table (["Capability"] :: names.map fun name => [name])

/-- Lists the capabilities that have configuration files. -/
def runServices (scope : Scope) (json : Bool) : Action Result := do
  match scope.serviceNames (← get).files with
  | .error cause => return .failed cause.message
  | .ok names => return .line (servicesListing scope.name names json)

/-- The class path that a command works on. -/
def classPath (environment : Settings) (arguments : ScopeArguments) : Action Scope := do
  return (environment.merge arguments.classPath arguments.home).build (← get).files

/-- **Executes** a command. -/
def execute (environment : Settings) : Command → Action Result
  | .check capabilities scope => do runCheck (← classPath environment scope) capabilities
  | .list capability scope json => do runList (← classPath environment scope) capability json
  | .services scope json => do runServices (← classPath environment scope) json

end ProviderDiscovery.CommandLine
