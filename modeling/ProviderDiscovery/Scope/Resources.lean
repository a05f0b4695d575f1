import ProviderDiscovery.Scope.Basic

/-!
# The resources of a scope

Which resources a scope has under a name, in **delegation order**: those of the parent first, then
those of the scope's own files or entries, in order. The first part of a scope that fails makes
the whole fail, with the same error.
-/

namespace ProviderDiscovery

namespace Services

/-- The identifier of a text in memory: the scope, the capability and the number of texts that
were added for it before. -/
def resourceId (scope capability : String) (index : Nat) : ResourceId :=
  ⟨"mem:" ++ scope ++ "/" ++ servicesPrefix ++ capability ++ "#" ++ toString index⟩

/-- The resources of a capability's texts. -/
def resourcesFor (s : Services) (scope capability : String) : List Resource :=
  (s.texts capability).zipIdx.map fun (text, index) =>
    .ofBytes (resourceId scope capability index) (Text.Utf8.encode text)

/-- The resources under a name: the texts of the capability whose file it names. -/
def resources (s : Services) (scope name : String) : List Resource :=
  match s.entries.find? fun (c, _) => servicesPrefix ++ c = name with
  | some (capability, _) => s.resourcesFor scope capability
  | none => []

end Services

namespace Scope

/-- The file of a name below a folder, if there is one. -/
def directoryResources (files : FileTree) (root : Path) (name : String) : List Resource :=
  if files.isFile (root.join name) then [.ofFile (root.join name)] else []

/-- The archive in a file. -/
def openArchive (files : FileTree) (path : Path) : Except ScopeError Archive :=
  match files.entry path with
  | .error fault => .error (.io path.text fault)
  | .ok e =>
    match files.archives e with
    | .error cause => .error (.archive ⟨path.text, cause⟩)
    | .ok a => .ok a

/-- The entry of a name in an archive, if there is one. -/
def archiveResources (files : FileTree) (path : Path) (name : String) :
    Except ScopeError (List Resource) :=
  (openArchive files path).map fun a =>
    if a.names.contains name then [.ofArchiveEntry path name] else []

/-- The answer of a party. -/
def partyResources (p : ScopeParty) (name : String) : Attempt ScopeError (List Resource) := do
  let before ← (countCall p.handle (.probed p.handle) : Action Nat)
  MonadExcept.ofExcept (p.answer before name)

mutual

/-- The **resources** of a scope under a name. -/
def resources (name : String) : Scope → Attempt ScopeError (List Resource)
  | .memory scope services parent => do
    let inherited ← parentResources name parent
    return inherited ++ services.resources scope name
  | .directory root => do
    return directoryResources (← get).files root name
  | .archive path => do
    MonadExcept.ofExcept (archiveResources (← get).files path name)
  | .classPath _ entries parent => do
    let inherited ← parentResources name parent
    let own ← entryResources name entries
    return inherited ++ own
  | .custom p _ _ => partyResources p name

/-- The resources of a parent, if there is one. -/
def parentResources (name : String) : Option Scope → Attempt ScopeError (List Resource)
  | none => return []
  | some parent => resources name parent

/-- The resources of scopes, one after the other. -/
def entryResources (name : String) : List Scope → Attempt ScopeError (List Resource)
  | [] => return []
  | entry :: rest => do
    let found ← resources name entry
    let more ← entryResources name rest
    return found ++ more

end

/-- The configuration files of a capability. Only a qualified name can be located; for any other
identifier the scope is not even asked. -/
def locate (s : Scope) (c : CapabilityId) : Attempt ScopeError (List Resource) := do
  if !isQualifiedName c.text then throw (.invalidIdentifier c.text)
  (record (.asked s.name c.resourceName) : Action Unit)
  s.resources c.resourceName

end Scope

end ProviderDiscovery
