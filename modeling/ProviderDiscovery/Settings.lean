import ProviderDiscovery.Scope.ServiceNames

/-!
# Settings of a class path

Which entries a class path has, and which installation its installed providers come from.
Settings that are given explicitly win over those of the environment. Building the class path
looks at the files: an entry that does not exist is left out.
-/

namespace ProviderDiscovery

/-- **Settings** of a class path. -/
structure Settings where
  /-- The entries: folders and archives, in order. -/
  entries : List Path
  /-- The folder of an installation, whose archives become the parent of the class path. -/
  home : Option Path
  deriving DecidableEq

namespace Settings

/-- Settings without entries and installation. -/
def empty : Settings := ⟨[], none⟩

instance : EmptyCollection Settings := ⟨empty⟩

/-- The paths in a list that colons separate; empty ones are left out. -/
def splitPaths (list : String) : List Path :=
  ((Text.segments ':' list.toList).filter (· ≠ [])).map fun s => ⟨String.ofList s⟩

/-- The settings of an environment: a path list and an installation, if they are set. -/
def ofEnvironment (classPath home : Option String) : Settings where
  entries := (classPath.map splitPaths).getD []
  home := (home.filter (· ≠ "")).map Path.mk

/-- The settings with others that win over them: entries do if there are any, an installation
does if one is given. -/
def merge (s : Settings) (entries : List Path) (home : Option Path) : Settings where
  entries := if entries = [] then s.entries else entries
  home := home.or s.home

/-- The settings with one more entry. -/
def withEntry (s : Settings) (entry : Path) : Settings :=
  { s with entries := s.entries ++ [entry] }

/-- The settings with an installation. -/
def withHome (s : Settings) (home : Path) : Settings := { s with home := some home }

/-- Whether two settings agree, paths being compared name by name. -/
def sameAs (s t : Settings) : Bool :=
  s.entries.length == t.entries.length &&
    (s.entries.zip t.entries).all (fun (p, q) => p.sameAs q) &&
    match s.home, t.home with
    | none, none => true
    | some p, some q => p.sameAs q
    | _, _ => false

/-- A description that shows the paths in quotes. -/
def describe (s : Settings) : String :=
  let entries := ", ".intercalate (s.entries.map fun p => Text.quote p.text)
  let home := match s.home with
    | none => "None"
    | some p => "Some(" ++ Text.quote p.text ++ ")"
  "ClassPathConfig \x7b entries: [" ++ entries ++ "], home: " ++ home ++ " \x7d"

/-! ### Building the class path -/

/-- Whether a path has the name of an archive. -/
def isArchiveName (p : Path) : Bool :=
  p.extension? == some "jar" || p.extension? == some "zip"

/-- The scope of an entry, unless the entry is to be left out. -/
def entryScope? (files : FileTree) (entry : Path) : Option Scope :=
  if files.isDirectory entry then some (.directory entry)
  else if files.isFile entry && isArchiveName entry then some (.archive entry)
  else none

/-- The archives of an installation, by name. -/
def installedArchives (files : FileTree) (home : Path) : List Path :=
  let folder := home.join "lib"
  match files.children folder with
  | .error _ => []
  | .ok names =>
    ((sortedNames names).map folder.join).filter fun p => files.isFile p && isArchiveName p

/-- The class path of an installation. -/
def installed (files : FileTree) (home : Path) : Scope :=
  .classPath "installed" ((installedArchives files home).map .archive) none

/-- The **class path** of settings. -/
def build (s : Settings) (files : FileTree) : Scope :=
  .classPath "application" (s.entries.filterMap (entryScope? files)) (s.home.map (installed files))

end Settings

end ProviderDiscovery
