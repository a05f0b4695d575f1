import ProviderDiscovery.Candidates
import ProviderDiscovery.Report.Json

/-!
# Listing providers

The providers that a discovery of a capability would come to, in order, without making any. The
list ends at the first failure, which is then all that is reported.
-/

namespace ProviderDiscovery.Report

/-- The candidates of names that a resource lists, without those that were listed before. -/
def freshCandidates (resource : ResourceId) : List Candidate → List String → List Candidate
  | found, [] => found
  | found, name :: rest =>
    if found.any (·.name = name) then freshCandidates resource found rest
    else freshCandidates resource (found ++ [⟨name, resource⟩]) rest

/-- The candidates of resources, behind those that were found before. -/
def collect (capability : CapabilityId) :
    List Resource → List Candidate → Action (Except DiscoveryError (List Candidate))
  | [], found => return .ok found
  | r :: rest, found => do
    match ← listedNames capability r with
    | .error e => return .error e
    | .ok names => collect capability rest (freshCandidates r.id found names)

/-- The **providers** of a capability that a scope lists. -/
def providers (scope : Scope) (capability : CapabilityId) :
    Action (Except DiscoveryError (List Candidate)) := do
  match ← (scope.locate capability).run with
  | .error cause => return .error ⟨capability, .scope cause⟩
  | .ok resources => collect capability resources []

/-- The providers with their positions, from one. -/
def positions (found : List Candidate) : List (Nat × Candidate) :=
  found.zipIdx.map fun (c, i) => (i + 1, c)

/-- The cells of a list's table. -/
def providerCells (found : List Candidate) : List (List String) :=
  ["#", "Provider", "Resource"] :: (positions found).map fun (n, c) =>
    [toString n, c.name, c.resource.text]

/-- The list as a report. -/
def providersJson (found : List Candidate) : Json :=
  .list ((positions found).map fun (n, c) => .record [
    ("position", .number n), ("provider", .text c.name), ("resource", .text c.resource.text)])

end ProviderDiscovery.Report
