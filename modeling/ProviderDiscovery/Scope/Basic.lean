import ProviderDiscovery.Keyed
import ProviderDiscovery.World

/-!
# Scopes

A **scope** is the universe in which configuration files are looked for. Scopes in memory, folders
and archives hold files themselves; a class path only puts other scopes in a row. A scope in
memory and a class path may have a parent, whose files come before their own. A party outside this
library may answer for a scope of its own, and for what is in its parent as well.
-/

namespace ProviderDiscovery

/-- The configuration texts that a scope in memory holds: for each capability, in the order of
their first texts, its texts in the order in which they were added. -/
structure Services where
  /-- The capabilities with their texts; each capability occurs once. -/
  entries : List (String × List String)

namespace Services

/-- No texts at all. -/
def empty : Services := ⟨[]⟩

instance : EmptyCollection Services := ⟨empty⟩

/-- The texts of a capability. -/
def texts (s : Services) (capability : String) : List String :=
  (s.entries.lookup capability).getD []

/-- One more text for a capability, behind those it has. -/
def add (s : Services) (capability text : String) : Services :=
  ⟨Keyed.put s.entries capability (s.texts capability ++ [text])⟩

/-- The capabilities that have texts. -/
def capabilities (s : Services) : List String := Keyed.keys s.entries

/-- A text that is added comes behind the texts of its capability. -/
theorem texts_add_self (s : Services) (capability text : String) :
    (s.add capability text).texts capability = s.texts capability ++ [text] := by
  simp [add, texts, Keyed.lookup_put_self]

/-- A text that is added for one capability leaves the texts of the others. -/
theorem texts_add_of_ne (s : Services) {c capability : String} (text : String)
    (h : c ≠ capability) : (s.add capability text).texts c = s.texts c := by
  simp [add, texts, Keyed.lookup_put_of_ne _ _ h]

/-- A capability is listed from its first text on, behind those before it. -/
theorem capabilities_add (s : Services) (capability text : String) :
    (s.add capability text).capabilities =
      if capability ∈ s.capabilities then s.capabilities else s.capabilities ++ [capability] :=
  Keyed.keys_put ..

end Services

/-- A party outside this library that answers for a scope of its own. -/
structure ScopeParty where
  /-- The party itself, among others. -/
  handle : Handle
  /-- The name of the scope. -/
  name : String
  /-- What it answers for a resource name, given the number of questions before. -/
  answer : Nat → String → Except ScopeError (List Resource)

/-- A **scope**: where configuration files are looked for. -/
inductive Scope where
  /-- Texts in memory. -/
  | memory (name : String) (services : Services) (parent : Option Scope)
  /-- The files below a folder. -/
  | directory (root : Path)
  /-- The entries of an archive. -/
  | archive (path : Path)
  /-- Other scopes, one after the other. -/
  | classPath (name : String) (entries : List Scope) (parent : Option Scope)
  /-- Whatever a party answers, with the services and the parent that it names. -/
  | custom (p : ScopeParty) (services : Except ScopeError (List String)) (parent : Option Scope)

namespace Scope

/-- A scope of a party that names neither services nor a parent. -/
@[match_pattern] def party (p : ScopeParty) : Scope := .custom p (.ok []) none

/-- The name of a scope. -/
def name : Scope → String
  | .memory name _ _ => name
  | .directory root => "dir:" ++ root.text
  | .archive path => "jar:" ++ path.text
  | .classPath name _ _ => name
  | .custom p _ _ => p.name

/-- The parent of a scope. -/
def parent? : Scope → Option Scope
  | .memory _ _ parent => parent
  | .classPath _ _ parent => parent
  | .custom _ _ parent => parent
  | .directory _ | .archive _ => none

/-- The outermost ancestor of a scope, which is the scope itself if it has no parent. -/
def root : Scope → Scope
  | .memory _ _ (some parent) => parent.root
  | .classPath _ _ (some parent) => parent.root
  | .custom _ _ (some parent) => parent.root
  | s => s

/-- Whether a class path has neither entries nor a parent. -/
def isEmptyClassPath : Scope → Bool
  | .classPath _ [] none => true
  | _ => false

/-- The entries of a class path. -/
def entries : Scope → List Scope
  | .classPath _ entries _ => entries
  | _ => []

/-- A description of the scope of a folder or an archive. -/
def describe : Scope → String
  | .directory root =>
    "DirectoryScope \x7b root: " ++ Text.quote root.text ++ ", name: " ++
      Text.quote ("dir:" ++ root.text) ++ " \x7d"
  | .archive path =>
    "JarScope \x7b path: " ++ Text.quote path.text ++ ", name: " ++
      Text.quote ("jar:" ++ path.text) ++ " \x7d"
  | s => s.name

end Scope

end ProviderDiscovery
