import ProviderDiscovery.Instances
import ProviderDiscovery.World

/-!
# Acceptance

A name is accepted by looking its type up, taking the factory for the contract, and calling it.
Only the last of these steps changes anything, and only its success reaches the table of
instances.
-/

namespace ProviderDiscovery

/-- A party outside this library that knows types. -/
structure ResolverParty where
  /-- The party itself, among others. -/
  handle : Handle
  /-- The type that it gives a name, given the number of questions before. -/
  answer : Nat → String → Option ProviderType

/-- Where the types of providers are looked up. -/
inductive Resolver where
  /-- In the registry of the world. -/
  | registry
  /-- Nowhere: no name has a type. -/
  | nothing
  /-- At a party. -/
  | party (p : ResolverParty)

namespace Resolver

/-- The type of a name. -/
def resolve (r : Resolver) (name : String) : Action (Option ProviderType) := do
  match r with
  | .nothing => return none
  | .registry =>
    record (.resolved name)
    return (← get).registry.resolve name
  | .party p =>
    let before ← countCall p.handle (.consulted p.handle name)
    return p.answer before name

end Resolver

/-- **Accepts** a name: makes an instance for the contract and keeps it, unless the name has one
already, which then stays. -/
def accept (r : Resolver) (contract : Contract) (capability : CapabilityId) (name : String)
    (c : Instances Provider) : Action (Except DiscoveryError Provider × Instances Provider) := do
  match ← r.resolve name with
  | none => return (.error ⟨capability, .providerNotFound name⟩, c)
  | some type =>
    match type.factory? contract with
    | none => return (.error ⟨capability, .providerNotAssignable name⟩, c)
    | some factory =>
      match ← factory.call name with
      | .error cause => return (.error ⟨capability, .instantiationFailed name cause⟩, c)
      | .ok provider =>
        let (kept, c) := c.insert name provider
        return (.ok kept, c)

end ProviderDiscovery
