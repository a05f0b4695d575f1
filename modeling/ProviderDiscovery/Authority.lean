import ProviderDiscovery.World

/-!
# Authority

A discovery may carry the authority of whoever started it. An authority is captured once, as a
token, and is entered again for every step: it may carry the step out, refuse it, or do neither.
A step is never carried out twice, however often the authority asks for it.
-/

namespace ProviderDiscovery

/-- What an authority does when it is entered. -/
structure Entrance where
  /-- How often it asks for the step. -/
  runs : Nat
  /-- Why it refuses, if it does. -/
  refusal : Option String
  deriving DecidableEq

/-- An **errand**: a step on a state that is to be carried out once. -/
structure Errand (σ α : Type) where
  /-- The answer of the step, once it has been carried out. -/
  answer : Option α
  /-- The state as it is now. -/
  state : σ

namespace Errand

/-- An errand that has not been carried out. -/
def given {σ α : Type} (s : σ) : Errand σ α := ⟨none, s⟩

/-- Asks for the step of an errand. Whoever asks again asks in vain. -/
def ask {σ α : Type} (step : σ → Action (α × σ)) (e : Errand σ α) : Action (Errand σ α) := do
  match e.answer with
  | some _ => return e
  | none =>
    let (answer, s) ← step e.state
    return ⟨some answer, s⟩

/-- Asks for the step of an errand a number of times. -/
def askTimes {σ α : Type} (step : σ → Action (α × σ)) :
    Errand σ α → Nat → Action (Errand σ α)
  | e, 0 => return e
  | e, n + 1 => do
    let e ← e.ask step
    e.askTimes step n

end Errand

/-- A party outside this library whose authority can be captured. -/
structure AuthorityParty where
  /-- The party itself, among others. -/
  handle : Handle
  /-- The token that a capture gives, if it gives one. -/
  token : Option Token
  /-- What it does when it is entered with that token, given the number of times before. -/
  entrance : Nat → Entrance

/-- The **authority** that a discovery carries. -/
inductive Authority where
  /-- None: every step is carried out. -/
  | unrestricted
  /-- The authority of a party, as captured in a token. -/
  | held (token : Token) (party : AuthorityParty)

namespace Authority

/-- Captures the authority of a party. Without a token there is nothing to enter again. -/
def capture (p : AuthorityParty) : Authority :=
  match p.token with
  | none => .unrestricted
  | some token => .held token p

/-- The token of an authority. -/
def token? : Authority → Option Token
  | .unrestricted => none
  | .held token _ => some token

/-- The fault of an authority that neither carries a step out nor refuses it. -/
def notRun (token : Token) : DiscoveryFault :=
  .privilegeDenied ("context for " ++ token.label ++ " did not run the action")

/-- Carries a step on a state out under an authority. What a refused step has done by then stays
done, but its answer is lost. -/
def run {σ α : Type} (a : Authority) (capability : CapabilityId)
    (step : σ → Action (α × σ)) (s : σ) : Action (Except DiscoveryError α × σ) := do
  match a with
  | .unrestricted =>
    let (answer, s) ← step s
    return (.ok answer, s)
  | .held token party =>
    let before ← countCall party.handle (.entered party.handle token)
    let entrance := party.entrance before
    let errand ← (Errand.given s).askTimes step entrance.runs
    match entrance.refusal with
    | some reason => return (.error ⟨capability, .privilegeDenied reason⟩, errand.state)
    | none =>
      match errand.answer with
      | some answer => return (.ok answer, errand.state)
      | none => return (.error ⟨capability, notRun token⟩, errand.state)

end Authority

end ProviderDiscovery
