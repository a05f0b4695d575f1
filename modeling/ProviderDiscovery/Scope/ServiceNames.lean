import ProviderDiscovery.Scope.Resources

/-!
# The services of a scope

Which capabilities a scope has configuration files for. Folders, archives and class paths list
them in ascending order; a scope in memory lists its own, in the order in which they were added,
and leaves its parent's out.
-/

namespace ProviderDiscovery

/-- Puts a name into its place in an ascending list. -/
def insertInOrder (name : String) : List String → List String
  | [] => [name]
  | other :: rest =>
    if other < name then other :: insertInOrder name rest else name :: other :: rest

/-- Names in ascending order, each as often as it occurs. -/
def orderedNames (names : List String) : List String := names.foldr insertInOrder []

theorem insertInOrder_perm (name : String) (names : List String) :
    (insertInOrder name names).Perm (name :: names) := by
  induction names with
  | nil => exact .refl _
  | cons other rest ih =>
    simp only [insertInOrder]
    split
    · exact (ih.cons other).trans (.swap name other rest)
    · exact .refl _

/-- Putting names in order loses none and invents none, and keeps how often each occurs. -/
theorem orderedNames_perm (names : List String) : (orderedNames names).Perm names := by
  induction names with
  | nil => exact .refl _
  | cons name rest ih => exact (insertInOrder_perm name _).trans (ih.cons name)

theorem pairwise_insertInOrder {name : String} {names : List String}
    (h : names.Pairwise (· ≤ ·)) : (insertInOrder name names).Pairwise (· ≤ ·) := by
  induction names with
  | nil => simp [insertInOrder]
  | cons other rest ih =>
    obtain ⟨hother, hrest⟩ := List.pairwise_cons.mp h
    simp only [insertInOrder]
    split
    · rename_i hlt
      refine List.pairwise_cons.mpr ⟨fun n hn => ?_, ih hrest⟩
      rcases List.mem_cons.mp ((insertInOrder_perm name rest).mem_iff.mp hn) with rfl | hn
      · exact String.not_lt.mp (String.lt_asymm hlt)
      · exact hother n hn
    · rename_i hle
      refine List.pairwise_cons.mpr ⟨fun n hn => ?_, h⟩
      rcases List.mem_cons.mp hn with rfl | hn
      · exact String.not_lt.mp hle
      · exact String.le_trans (String.not_lt.mp hle) (hother n hn)

/-- Names in order ascend. -/
theorem pairwise_orderedNames (names : List String) :
    (orderedNames names).Pairwise (· ≤ ·) := by
  induction names with
  | nil => exact .nil
  | cons name rest ih => exact pairwise_insertInOrder ih

/-- Puts a name into its place in an ascending list, unless it is there already. -/
def insertName (name : String) : List String → List String
  | [] => [name]
  | other :: rest =>
    if name < other then name :: other :: rest
    else if name = other then other :: rest
    else other :: insertName name rest

/-- Names in ascending order, each once. -/
def sortedNames (names : List String) : List String := names.foldr insertName []

@[simp] theorem mem_insertName {n name : String} {names : List String} :
    n ∈ insertName name names ↔ n = name ∨ n ∈ names := by
  induction names with
  | nil => simp [insertName]
  | cons other rest ih =>
    simp only [insertName]
    split
    · simp
    · split
      · rename_i h
        simp [h]
      · simp only [List.mem_cons, ih]
        exact or_left_comm

/-- Sorting neither loses nor invents names. -/
theorem mem_sortedNames {n : String} {names : List String} : n ∈ sortedNames names ↔ n ∈ names := by
  induction names with
  | nil => simp [sortedNames]
  | cons name rest ih =>
    rw [sortedNames, List.foldr_cons, mem_insertName, List.mem_cons]
    exact or_congr_right ih

/-- A name is put in behind the names that precede it, and before those that follow it. -/
theorem pairwise_insertName {name : String} {names : List String} (h : names.Pairwise (· < ·)) :
    (insertName name names).Pairwise (· < ·) := by
  induction names with
  | nil => simp [insertName]
  | cons other rest ih =>
    obtain ⟨hother, hrest⟩ := List.pairwise_cons.mp h
    simp only [insertName]
    split
    · rename_i hlt
      refine List.pairwise_cons.mpr ⟨fun n hn => ?_, h⟩
      rcases List.mem_cons.mp hn with rfl | hn
      · exact hlt
      · exact String.lt_trans hlt (hother n hn)
    · split
      · exact h
      · rename_i hlt hne
        have hgt : other < name := Decidable.not_not.mp fun hge =>
          hne (String.le_antisymm (String.not_lt.mp hge) (String.not_lt.mp hlt))
        refine List.pairwise_cons.mpr ⟨fun n hn => ?_, ih hrest⟩
        rcases mem_insertName.mp hn with rfl | hn
        · exact hgt
        · exact hother n hn

/-- Sorted names ascend, so none occurs twice. -/
theorem pairwise_sortedNames (names : List String) : (sortedNames names).Pairwise (· < ·) := by
  induction names with
  | nil => exact .nil
  | cons name rest ih => exact pairwise_insertName ih

namespace Scope

/-- The names of the files in the services folder below a folder. -/
def directoryServices (files : FileTree) (root : Path) : Except ScopeError (List String) :=
  let folder := root.join servicesPrefix
  if !files.isDirectory folder then .ok []
  else
    match files.children folder with
    | .error fault => .error (.io folder.text fault)
    | .ok names => .ok (sortedNames (names.filter fun name => files.isFile (folder.join name)))

/-- The service that the name of an archive's entry stands for: the entry has to lie in the
services folder itself. -/
def archiveService? (entry : String) : Option String :=
  let name := entry.toList
  let folder := servicesPrefix.toList
  if folder.isPrefixOf name then
    let rest := name.drop folder.length
    if rest = [] || rest.contains '/' then none else some (String.ofList rest)
  else none

/-- The services of an archive. Entries whose names read alike count one by one. -/
def archiveServices (files : FileTree) (path : Path) : Except ScopeError (List String) :=
  (openArchive files path).map fun a => orderedNames (a.names.filterMap archiveService?)

mutual

/-- The **services** of a scope: the capabilities that it has configuration files for. -/
def serviceNames (files : FileTree) : Scope → Except ScopeError (List String)
  | .memory _ services _ => .ok services.capabilities
  | .directory root => directoryServices files root
  | .archive path => archiveServices files path
  | .classPath _ entries parent => do
    let inherited ← parentServices files parent
    let own ← entryServices files entries
    return sortedNames (inherited ++ own)
  | .custom _ services _ => services

/-- The services of a parent, if there is one. -/
def parentServices (files : FileTree) : Option Scope → Except ScopeError (List String)
  | none => .ok []
  | some parent => serviceNames files parent

/-- The services of scopes, one after the other. -/
def entryServices (files : FileTree) : List Scope → Except ScopeError (List String)
  | [] => .ok []
  | entry :: rest => do
    let found ← serviceNames files entry
    let more ← entryServices files rest
    return found ++ more

end

end Scope

end ProviderDiscovery
