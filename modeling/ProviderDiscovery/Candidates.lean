import ProviderDiscovery.Configuration.Names
import ProviderDiscovery.Scope.Resources

/-!
# Candidates

The names that the configuration files of a capability list, one after the other and each once.
Nothing is located before the first name is asked for, and a file is read only when all names of
the files before it have been used up. A file that cannot be read or is malformed is reported once
and skipped.
-/

namespace ProviderDiscovery

/-- A **candidate**: the name of a provider, and the resource that lists it. -/
structure Candidate where
  /-- The name of the provider. -/
  name : String
  /-- The resource that lists the name. -/
  resource : ResourceId
  deriving DecidableEq

/-- The fault of a file as the fault of the discovery that reads it as a resource. -/
def FileFault.inResource (resource : ResourceId) : FileFault → DiscoveryFault
  | .undecodable => .unreadable resource .invalidUtf8
  | .malformed line fault => .malformed resource line fault

/-- The names that lines of a resource list. -/
def namesInLines (capability : CapabilityId) (resource : ResourceId) (lines : List (List UInt8)) :
    Except DiscoveryError (List String) :=
  (Configuration.readLines 1 lines).mapError fun fault => ⟨capability, fault.inResource resource⟩

/-- The lines that can be read of what was opened. -/
def Opened.lines : Opened → List (List UInt8)
  | .error _ => []
  | .ok bytes => Text.lines bytes
  | .broken bytes _ => Text.endedLines bytes

/-- The names in what was opened as a resource. -/
def namesRead (capability : CapabilityId) (resource : ResourceId) (opened : Opened) :
    Except DiscoveryError (List String) := do
  -- A line that is bad is met before the reading breaks off.
  let names ← namesInLines capability resource opened.lines
  match opened with
  | .ok _ => return names
  | .error cause | .broken _ cause => .error ⟨capability, .unreadable resource cause⟩

/-- The names that a resource lists, as it is now. -/
def listedNames (capability : CapabilityId) (r : Resource) :
    Action (Except DiscoveryError (List String)) := do
  return namesRead capability r.id (← r.fetch)

/-- The **candidates** of a capability in a scope, as far as they have been looked at. -/
structure Candidates where
  /-- The capability whose providers are looked for. -/
  capability : CapabilityId
  /-- The scope that they are looked for in. -/
  scope : Scope
  /-- The resources that have not been opened; `none` before they have been located. -/
  unread : Option (List Resource)
  /-- The resource that the pending names come from. -/
  current : Option ResourceId
  /-- The names of that resource that have not been looked at. -/
  pending : List String
  /-- A candidate that has been found but not handed out. -/
  upcoming : Option Candidate
  /-- The names that have been handed out. -/
  returned : List String

namespace Candidates

/-- The candidates before anything has been looked at. -/
def start (capability : CapabilityId) (scope : Scope) : Candidates :=
  ⟨capability, scope, none, none, [], none, []⟩

/-- Whether a name is not to be handed out. -/
def isSkipped (c : Candidates) (known : String → Bool) (name : String) : Bool :=
  known name || c.returned.contains name

/-- Looks through the pending names for one that is not skipped. -/
def searchPending (known : String → Bool) (c : Candidates) : List String → Bool × Candidates
  | [] => (false, { c with pending := [] })
  | name :: rest =>
    if c.isSkipped known name then c.searchPending known rest
    else
      match c.current with
      | some resource => (true, { c with pending := rest, upcoming := some ⟨name, resource⟩ })
      | none => c.searchPending known rest

/-- Looks through the pending names, and then through the resources that have not been opened,
until a name is found or a resource fails. -/
def search (known : String → Bool) :
    List Resource → Candidates → Action (Except DiscoveryError Bool × Candidates)
  | unread, c => do
    let (found, c) := c.searchPending known c.pending
    if found then return (.ok true, { c with unread := some unread })
    else
      match unread with
      | [] => return (.ok false, { c with unread := some [] })
      | r :: rest =>
        match ← listedNames c.capability r with
        -- A resource that fails is used up: the next search goes on behind it.
        | .error e => return (.error e, { c with unread := some rest })
        | .ok names => search known rest { c with current := some r.id, pending := names }

/-- Whether there is another candidate that the caller does not know. Found once, it waits to be
handed out. -/
def hasNext (known : String → Bool) (c : Candidates) :
    Action (Except DiscoveryError Bool × Candidates) := do
  if c.upcoming.isSome then return (.ok true, c)
  else
    match c.unread with
    | some unread => search known unread c
    | none =>
      match ← (c.scope.locate c.capability).run with
      | .error cause => return (.error ⟨c.capability, .scope cause⟩, c)
      | .ok unread => search known unread c

/-- Hands the next candidate out that the caller does not know, if there is one. -/
def next (known : String → Bool) (c : Candidates) :
    Action (Except DiscoveryError (Option Candidate) × Candidates) := do
  match ← c.hasNext known with
  | (.error e, c) => return (.error e, c)
  | (.ok false, c) => return (.ok none, c)
  | (.ok true, c) =>
    match c.upcoming with
    | none => return (.ok none, c)
    | some candidate =>
      return (.ok (some candidate),
        { c with upcoming := none, returned := c.returned ++ [candidate.name] })

/-- The answer to whoever wants to remove a candidate: they come from files. -/
def removal (c : Candidates) : DiscoveryError := ⟨c.capability, .notSupported "remove"⟩

end Candidates

end ProviderDiscovery
