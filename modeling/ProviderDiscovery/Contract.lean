/-!
# Contracts and factories

A provider is made by a factory, and it is made for a contract: the interface that its users
expect of it. What a factory does may differ from call to call, so a factory is given by what its
successive calls do. A handle tells parties apart that are outside this library and keep a state
of their own; the world counts their calls.
-/

namespace ProviderDiscovery

/-- A **handle** of a party outside this library. -/
structure Handle where
  /-- Handles with different numbers are different parties. -/
  number : Nat
  deriving DecidableEq, Inhabited

/-- A **contract**, by name. -/
structure Contract where
  /-- The name of the contract. -/
  name : String
  deriving DecidableEq, Inhabited

/-- What a factory may throw instead of answering. -/
inductive Thrown where
  /-- A text. -/
  | text (message : String)
  /-- Something that is not a text. -/
  | other
  deriving DecidableEq

/-- The cause that is reported for what was thrown. -/
def Thrown.message : Thrown → String
  | .text message => message
  | .other => "provider constructor panicked"

/-- How one call of a factory ends. -/
inductive Outcome where
  /-- It makes a provider. -/
  | made
  /-- It fails with a cause. -/
  | failed (cause : String)
  /-- It throws. -/
  | threw (thrown : Thrown)
  deriving DecidableEq

/-- A **factory** of providers. -/
structure Factory where
  /-- The factory itself, among others. -/
  handle : Handle
  /-- What is told of every provider that the factory makes. -/
  value : String
  /-- How a call ends, given the number of calls before it. -/
  outcome : Nat → Outcome

/-- A **provider**: one instance that a factory made. Two instances differ in their serial
numbers. -/
structure Provider where
  /-- What its factory tells of it. -/
  value : String
  /-- The number of the factory call that made it, counted over all factories from one. -/
  serial : Nat
  deriving DecidableEq, Inhabited

end ProviderDiscovery
