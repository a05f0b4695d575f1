import ProviderDiscovery.Registry
import ProviderDiscovery.Resource
import ProviderDiscovery.Token

/-!
# The world of a discovery

A discovery reads files, looks types up, and calls parties that are outside this library. The
**world** is all that these steps can see and change: the files, the registry and the history of
what has been done. Parties that keep a state of their own see it as the number of their calls so
far, and that number is read off the history.

A step of a discovery is an `Action`, a function of the world. A step that can fail is an
`Attempt`; what it did before it failed stays done.
-/

namespace ProviderDiscovery

/-- Something that was done in the world. -/
inductive Event where
  /-- A scope was asked for its resources of a name. -/
  | asked (scope name : String)
  /-- A party that answers for a scope was called. -/
  | probed (party : Handle)
  /-- A resource was opened. -/
  | opened (resource : Resource)
  /-- The type of a name was looked up in the registry. -/
  | resolved (name : String)
  /-- A party that knows types was asked for the type of a name. -/
  | consulted (party : Handle) (name : String)
  /-- A name was taken up for acceptance, from the resource that lists it. -/
  | accepting (name : String) (resource : ResourceId)
  /-- A factory was called for the type of a name; it makes providers of a value. -/
  | constructed (factory : Handle) (name value : String)
  /-- A factory made a provider for the type of a name. -/
  | made (name : String) (provider : Provider)
  /-- An authority was entered with a token. -/
  | entered (authority : Handle) (token : Token)
  deriving DecidableEq

/-- Whether the event is a call of a party. -/
def Event.calls (e : Event) (h : Handle) : Bool :=
  match e with
  | .probed party => party == h
  | .consulted party _ => party == h
  | .constructed factory _ _ => factory == h
  | .entered authority _ => authority == h
  | _ => false

/-- The **world** of a discovery. -/
structure World where
  /-- The files that can be seen. -/
  files : FileTree
  /-- The types that are known. -/
  registry : Registry
  /-- What has been done, the latest first. -/
  history : List Event

namespace World

/-- A world of files and types in which nothing has been done. -/
def fresh (files : FileTree) (registry : Registry) : World := ⟨files, registry, []⟩

/-- How often a party has been called. -/
def callCount (w : World) (h : Handle) : Nat := w.history.countP (·.calls h)

/-- The values of all factory calls, the earliest first. -/
def constructed (w : World) : List String :=
  (w.history.filterMap fun
    | .constructed _ _ value => some value
    | _ => none).reverse

/-- The labels of the tokens with which an authority was entered, the earliest first. -/
def entered (w : World) (h : Handle) : List String :=
  (w.history.filterMap fun
    | .entered authority token => if authority = h then some token.label else none
    | _ => none).reverse

/-- The world after something has been done. -/
def record (w : World) (e : Event) : World := { w with history := e :: w.history }

end World

/-- A **step** in the world that answers something. -/
abbrev Action (α : Type) := StateM World α

/-- A step that can fail. What it did before stays done. -/
abbrev Attempt (ε α : Type) := ExceptT ε (StateM World) α

/-- Records that something has been done. -/
def record (e : Event) : Action Unit := modify (·.record e)

/-- Records a call of a party, and tells the number of its calls before. -/
def countCall (h : Handle) (e : Event) : Action Nat := do
  let before := (← get).callCount h
  record e
  return before

/-- Opens a resource for its bytes. -/
def Resource.fetch (r : Resource) : Action Opened := do
  record (.opened r)
  return r.opened (← get).files

/-- Calls the factory of the type of a name. What it makes is numbered by all calls of factories
so far, this one included. -/
def Factory.call (f : Factory) (name : String) : Action (Except String Provider) := do
  let before ← countCall f.handle (.constructed f.handle name f.value)
  match f.outcome before with
  | .made =>
    let provider : Provider := ⟨f.value, (← get).constructed.length⟩
    record (.made name provider)
    return .ok provider
  | .failed cause => return .error cause
  | .threw thrown => return .error thrown.message

end ProviderDiscovery
