import ProviderDiscovery.Candidates
import ProviderDiscovery.Scope.ServiceNames

/-!
# Checking configuration files

A check reads every configuration file of some capabilities, each by itself, and goes on after a
failure. Each file has a row; a capability without files, or one that cannot be located, has a row
as well. Failures are counted as they are met.
-/

namespace ProviderDiscovery.Report

/-- What a check found out about one file. -/
inductive Verdict where
  /-- The file lists so many names, repetitions included. -/
  | valid (names : Nat)
  /-- There is no file. -/
  | missing
  /-- The files could not be located. -/
  | unlocated (cause : ScopeError)
  /-- The file could not be read or is malformed. -/
  | invalid (e : DiscoveryError)
  deriving DecidableEq

/-- A row of a check. -/
structure CheckRow where
  /-- The capability that was checked. -/
  capability : CapabilityId
  /-- The file that was read, if there was one. -/
  resource : Option ResourceId
  /-- What was found out. -/
  verdict : Verdict
  deriving DecidableEq

namespace Verdict

/-- Whether the verdict is a failure. -/
def isFailure : Verdict → Bool
  | .unlocated _ | .invalid _ => true
  | .valid _ | .missing => false

/-- The number of providers that the file counts for. -/
def providers : Verdict → Nat
  | .valid names => names
  | _ => 0

/-- The text that reports the verdict. -/
def status : Verdict → String
  | .valid _ => "ok"
  | .missing => "no configuration"
  | .unlocated cause => cause.message
  | .invalid e => e.message

end Verdict

/-- What a check reports. -/
structure CheckReport where
  /-- The rows. -/
  rows : List CheckRow
  /-- How many failures have been counted. -/
  failures : Nat
  deriving DecidableEq

namespace CheckReport

/-- The report of nothing. -/
def empty : CheckReport := ⟨[], 0⟩

/-- The report with one more row. -/
def push (report : CheckReport) (row : CheckRow) : CheckReport :=
  { report with rows := report.rows ++ [row] }

/-- The report with one more row, which counts as a failure. -/
def pushFailure (report : CheckReport) (row : CheckRow) : CheckReport :=
  ⟨report.rows ++ [row], report.failures + 1⟩

end CheckReport

/-- Reports one file, behind what has been reported. -/
def checkResource (capability : CapabilityId) (report : CheckReport) (r : Resource) :
    Action CheckReport := do
  match ← listedNames capability r with
  | .ok names => return report.push ⟨capability, some r.id, .valid names.length⟩
  | .error e => return report.pushFailure ⟨capability, some r.id, .invalid e⟩

/-- Reports one capability, behind what has been reported. -/
def checkCapability (scope : Scope) (report : CheckReport) (capability : CapabilityId) :
    Action CheckReport := do
  match ← (scope.locate capability).run with
  | .error cause => return report.pushFailure ⟨capability, none, .unlocated cause⟩
  | .ok [] => return report.push ⟨capability, none, .missing⟩
  | .ok resources => resources.foldlM (checkResource capability) report

/-- The capabilities to check: those that are given, or all that the scope has files for. -/
def chosenCapabilities (files : FileTree) (scope : Scope) (given : List String) :
    Except ScopeError (List String) :=
  if given = [] then scope.serviceNames files else .ok given

/-- Reports the capabilities to check, one after the other. -/
def check (scope : Scope) (given : List String) : Action (Except ScopeError CheckReport) := do
  match chosenCapabilities (← get).files scope given with
  | .error cause => return .error cause
  | .ok names =>
    return .ok (← names.foldlM (fun report name => checkCapability scope report ⟨name⟩) .empty)

/-- The cells of a check's table. -/
def checkCells (rows : List CheckRow) : List (List String) :=
  ["Capability", "Resource", "Providers", "Status"] :: rows.map fun row =>
    [row.capability.text, (row.resource.map (·.text)).getD "-", toString row.verdict.providers,
      row.verdict.status]

end ProviderDiscovery.Report
