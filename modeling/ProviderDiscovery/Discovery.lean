import ProviderDiscovery.Acceptance
import ProviderDiscovery.Authority
import ProviderDiscovery.Candidates
import ProviderDiscovery.Settings

/-!
# Discovery

A **discovery** looks for the providers of one capability and keeps the instances that it has made.
It can be passed over any number of times: a pass first replays the instances that are kept and
then goes on looking where the pass before stopped, so a provider is made at most once. Reloading
forgets everything that was found.
-/

namespace ProviderDiscovery

/-- A **discovery** of the providers of a capability. -/
structure Discovery where
  /-- The capability that is looked for. -/
  capability : CapabilityId
  /-- The contract that providers have to implement. -/
  contract : Contract
  /-- The scope that is looked in. -/
  scope : Scope
  /-- Where types are looked up. -/
  resolver : Resolver
  /-- The authority under which every step is taken. -/
  authority : Authority
  /-- The instances that have been made. -/
  instances : Instances Provider
  /-- The candidates, as far as they have been looked at. -/
  candidates : Candidates

namespace Discovery

/-- A discovery that has looked at nothing. -/
def start (capability : CapabilityId) (contract : Contract) (scope : Scope) (resolver : Resolver)
    (authority : Authority) : Discovery :=
  ⟨capability, contract, scope, resolver, authority, ∅, .start capability scope⟩

/-- A discovery in a scope, without authority. -/
def load (capability : CapabilityId) (contract : Contract) (scope : Scope) : Discovery :=
  .start capability contract scope .registry .unrestricted

/-- A discovery that sees only the outermost ancestor of a scope: the installed providers. -/
def loadInstalled (capability : CapabilityId) (contract : Contract) (scope : Scope) : Discovery :=
  .load capability contract scope.root

/-- The scope of a discovery that is given none. -/
def emptyScope : Scope := .classPath "empty" [] none

/-- A discovery of which any part may be left out: without a scope it finds nothing, without a
resolver it accepts nothing, without a party it is unrestricted. -/
def build (capability : CapabilityId) (contract : Contract) (scope : Option Scope)
    (resolver : Option Resolver) (party : Option AuthorityParty) : Discovery :=
  .start capability contract (scope.getD emptyScope) (resolver.getD .nothing)
    ((party.map Authority.capture).getD .unrestricted)

/-- The name that a discovery is shown by. -/
def title (d : Discovery) : String := "provscope::ServiceLoader[" ++ d.capability.text ++ "]"

/-- A description that counts the instances. -/
def describe (d : Discovery) : String :=
  "ServiceLoader \x7b capability: " ++ d.capability.describe ++ ", scope: " ++
    Text.quote d.scope.name ++ ", cached: " ++ toString d.instances.size ++ " \x7d"

/-- Forgets the instances and starts looking from the beginning. -/
def reload (d : Discovery) : Discovery :=
  { d with instances := d.instances.clear, candidates := .start d.capability d.scope }

/-- Looks for the next candidate that has no instance. -/
def nextCandidate (d : Discovery) :
    Action (Except DiscoveryError (Option Candidate) × Discovery) := do
  let (answer, candidates) ←
    d.authority.run d.capability (Candidates.next d.instances.contains) d.candidates
  return (answer.bind id, { d with candidates := candidates })

/-- Accepts the name of a candidate. -/
def acceptName (d : Discovery) (name : String) :
    Action (Except DiscoveryError Provider × Discovery) := do
  let (answer, instances) ←
    d.authority.run d.capability (accept d.resolver d.contract d.capability name) d.instances
  return (answer.bind id, { d with instances := instances })

/-- Looks for the next provider and makes it. -/
def advance (d : Discovery) : Action (Except DiscoveryError (Option Provider) × Discovery) := do
  match ← d.nextCandidate with
  | (.error e, d) => return (.error e, d)
  | (.ok none, d) => return (.ok none, d)
  | (.ok (some candidate), d) =>
    record (.accepting candidate.name candidate.resource)
    let (answer, d) ← d.acceptName candidate.name
    return (answer.map some, d)

end Discovery

/-- A **pass** over the providers of a discovery. It ends at the first error or when no provider
is left, and stays ended. -/
structure Pass where
  /-- The number of instances that the pass has yielded or skipped. -/
  position : Nat
  /-- Whether the pass has ended. -/
  ended : Bool
  deriving DecidableEq

namespace Pass

/-- A pass that has yielded nothing. -/
def start : Pass := ⟨0, false⟩

/-- The next provider of a pass, if there is one: a kept instance as long as there are some, and
then a new one. -/
def next (p : Pass) (d : Discovery) :
    Action (Option (Except DiscoveryError Provider) × Pass × Discovery) := do
  if p.ended then return (none, p, d)
  else
    match d.instances.getIndex? p.position with
    | some (_, provider) => return (some (.ok provider), { p with position := p.position + 1 }, d)
    | none =>
      match ← d.advance with
      | (.ok (some provider), d) =>
        -- The new provider is the last instance, so the pass has come to the end of them.
        return (some (.ok provider), { p with position := d.instances.size }, d)
      | (.ok none, d) => return (none, { p with ended := true }, d)
      | (.error e, d) => return (some (.error e), { p with ended := true }, d)

end Pass

end ProviderDiscovery
