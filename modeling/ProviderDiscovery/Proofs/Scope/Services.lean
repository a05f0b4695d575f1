import ProviderDiscovery.Proofs.Files.Tree
import ProviderDiscovery.Proofs.Name
import ProviderDiscovery.Proofs.Scope.Steady
import ProviderDiscovery.Settings

/-!
# Services are what can be located

The services of a scope are listed in one walk, and the configuration files of a capability are
located in another. For scopes that are made of folders and archives both agree: a capability is
among the services if and only if it has a file, and if some part of the scope cannot be opened
both fail with the same error.

`Accord` relates the two walks. It holds of a folder and of an archive, and the walks over several
parts keep it.
-/

namespace ProviderDiscovery

namespace Scope

/-! ### Accord -/

/-- A list of services and the resources of a capability **match** when both fail with the same
cause, or the capability is listed if and only if it has resources. -/
def Matches (id : String) :
    Except ScopeError (List String) → Except ScopeError (List Resource) → Prop
  | .error cause, .error cause' => cause = cause'
  | .ok names, .ok rs => id ∈ names ↔ rs ≠ []
  | _, _ => False

namespace Matches

variable {id : String} {listed : Except ScopeError (List String)}
  {located : Except ScopeError (List Resource)} {cause : ScopeError}

theorem exists_eq_ok {names : List String} (h : Matches id (.ok names) located) :
    ∃ rs, located = .ok rs ∧ (id ∈ names ↔ rs ≠ []) :=
  match located, h with
  | .ok rs, h => ⟨rs, rfl, h⟩

theorem eq_error (h : Matches id (.error cause) located) : located = .error cause :=
  match located, h with
  | .error _, rfl => rfl

theorem eq_error_of_located (h : Matches id listed (.error cause)) : listed = .error cause :=
  match listed, h with
  | .error _, rfl => rfl

end Matches

/-- What is listed and what is located on some files are in **accord** when they match for each
qualified name. -/
def Accord (files : FileTree) (listed : Except ScopeError (List String))
    (located : String → Attempt ScopeError (List Resource)) : Prop :=
  ∀ id, isQualifiedName id →
    ∃ answer, AlwaysAnswers files (located id).run answer ∧ Matches id listed answer

namespace Accord

variable {files : FileTree}

/-- Nothing is listed where nothing can be located. -/
theorem nil : Accord files (.ok []) fun _ => pure [] :=
  fun _ _ => ⟨.ok [], .attempt_pure _, by simp [Matches]⟩

/-- Two walks one after the other, the first of which fails first. -/
theorem append {x y : Except ScopeError (List String)}
    {f g : String → Attempt ScopeError (List Resource)}
    {combine : List String → List String → List String}
    (hx : Accord files x f) (hy : Accord files y g)
    (hcombine : ∀ id names more, id ∈ combine names more ↔ id ∈ names ∨ id ∈ more) :
    Accord files (do let names ← x; let more ← y; return combine names more)
      fun id => do let rs ← f id; let more ← g id; return rs ++ more := by
  intro id hid
  obtain ⟨a, ha, hxa⟩ := hx id hid
  obtain ⟨b, hb, hyb⟩ := hy id hid
  match x, a, hxa with
  | .error cause, .error _, rfl => exact ⟨.error cause, .attempt_bind_of_error ha _, rfl⟩
  | .ok names, .ok rs, hrs =>
    match y, b, hyb with
    | .error cause, .error _, rfl =>
      exact ⟨.error cause, .attempt_bind ha (.attempt_bind_of_error hb _), rfl⟩
    | .ok more, .ok found, hfound =>
      refine ⟨.ok (rs ++ found), .attempt_bind ha (.attempt_bind hb (.attempt_pure _)), ?_⟩
      have hnames : id ∈ names ↔ rs ≠ [] := hrs
      have hmore : id ∈ more ↔ found ≠ [] := hfound
      change id ∈ combine names more ↔ rs ++ found ≠ []
      rw [hcombine, hnames, hmore]
      cases rs <;> simp

end Accord

/-! ### Folders -/

theorem servicesPrefix_isAbsolute : (Path.mk servicesPrefix).isAbsolute = false := rfl

theorem servicesPrefix_endsInSlash : (Path.mk servicesPrefix).endsInSlash := by decide +kernel

/-- A qualified name is a name that a folder can have for a file. -/
theorem isPlain_of_isQualifiedName {id : String} (hid : isQualifiedName id) : Path.IsPlain id where
  ne_empty := by
    rintro rfl
    exact absurd hid (by decide +kernel)
  ne_dot := by
    rintro rfl
    exact absurd hid (by decide +kernel)
  ne_dots := by
    rintro rfl
    exact absurd hid (by decide +kernel)
  slash := slash_not_mem_of_isQualified hid

/-- A file of the services folder is found from the folder above. -/
theorem join_servicesPrefix {name : String} (hname : Path.IsPlain name) (root : Path) :
    (root.join servicesPrefix).join name = root.join (servicesPrefix ++ name) :=
  Path.join_join servicesPrefix_isAbsolute servicesPrefix_endsInSlash
    (Path.isAbsolute_eq_false hname.slash) root

/-- A folder lists the names of the files in its services folder, in order. -/
theorem exists_directoryServices (files : FileTree) (root : Path) :
    ∃ names, directoryServices files root = .ok names ∧ names.Pairwise (· < ·) ∧
      (∀ name, Path.IsPlain name →
        (name ∈ names ↔ files.isFile (root.join (servicesPrefix ++ name)))) ∧
      ∀ name ∈ names, ∃ children,
        files.children (root.join servicesPrefix) = .ok children ∧ name ∈ children := by
  rw [directoryServices]
  have hslash := Path.endsInSlash_join servicesPrefix_isAbsolute servicesPrefix_endsInSlash root
  have hlisted : ∀ name, Path.IsPlain name →
      files.isFile (root.join (servicesPrefix ++ name)) →
      files.isDirectory (root.join servicesPrefix) ∧
        ∃ names, files.children (root.join servicesPrefix) = .ok names ∧ name ∈ names := by
    intro name hname hfile
    rw [← join_servicesPrefix hname] at hfile
    exact FileTree.mem_children_of_isFile_join hslash hname hfile
  cases hfolder : files.isDirectory (root.join servicesPrefix) with
  | false =>
    refine ⟨[], rfl, .nil, fun name hname => ⟨fun h => (by cases h), fun hfile => ?_⟩, by simp⟩
    rw [hfolder] at hlisted
    cases (hlisted name hname hfile).1
  | true =>
    obtain ⟨children, hchildren⟩ := FileTree.exists_children_of_isDirectory hfolder
    simp only [hchildren]
    refine ⟨_, rfl, pairwise_sortedNames _, fun name hname => ?_, fun name hname => ?_⟩
    · rw [mem_sortedNames, List.mem_filter, join_servicesPrefix hname]
      refine ⟨And.right, fun hfile => ⟨?_, hfile⟩⟩
      obtain ⟨-, names, hnames, hmem⟩ := hlisted name hname hfile
      rw [hchildren] at hnames
      rwa [Except.ok.inj hnames]
    · exact ⟨children, rfl, (List.mem_filter.mp (mem_sortedNames.mp hname)).1⟩

theorem accord_directory (files : FileTree) (root : Path) :
    Accord files (directoryServices files root) fun id =>
      (directory root).resources (servicesPrefix ++ id) := by
  intro id hid
  obtain ⟨names, hnames, -, hmem, -⟩ := exists_directoryServices files root
  refine ⟨.ok (directoryResources files root (servicesPrefix ++ id)), ?_, ?_⟩
  · simp only [resources]
    refine .attempt_get_bind fun w hw => ?_
    rw [hw]
    exact .attempt_pure _
  · rw [hnames]
    change id ∈ names ↔ directoryResources files root (servicesPrefix ++ id) ≠ []
    rw [hmem id (isPlain_of_isQualifiedName hid), directoryResources]
    split <;> simp_all

/-! ### Archives -/

/-- An entry stands for a service when it lies in the services folder itself. -/
theorem archiveService?_eq_some_iff {entry name : String} :
    archiveService? entry = some name ↔
      entry = servicesPrefix ++ name ∧ name ≠ "" ∧ '/' ∉ name.toList := by
  constructor
  · intro h
    simp only [archiveService?] at h
    split at h
    · rename_i hfolder
      obtain ⟨rest, hrest⟩ := List.isPrefixOf_iff_prefix.mp hfolder
      rw [← hrest, List.drop_left] at h
      split at h
      · cases h
      · rename_i hplain
        obtain rfl := Option.some.inj h
        refine ⟨?_, ?_⟩
        · rw [← String.toList_inj, ← hrest, String.toList_append, String.toList_ofList]
        · simpa [← String.toList_inj] using hplain
    · cases h
  · rintro ⟨rfl, hne, hslash⟩
    have hfolder : servicesPrefix.toList.isPrefixOf (servicesPrefix ++ name).toList := by
      rw [String.toList_append]
      exact List.isPrefixOf_iff_prefix.mpr (List.prefix_append ..)
    have hplain : ¬(name.toList = [] || name.toList.contains '/') := by
      simp [hne, hslash]
    simp only [archiveService?, hfolder, if_true]
    rw [String.toList_append, List.drop_left, if_neg hplain, String.ofList_toList]

theorem accord_archive (files : FileTree) (path : Path) :
    Accord files (archiveServices files path) fun id =>
      (archive path).resources (servicesPrefix ++ id) := by
  intro id hid
  refine ⟨archiveResources files path (servicesPrefix ++ id), ?_, ?_⟩
  · simp only [resources]
    refine .attempt_get_bind fun w hw => ?_
    rw [hw]
    exact .attempt_of _
  · rw [archiveServices, archiveResources]
    cases openArchive files path with
    | error cause => rfl
    | ok a =>
      change id ∈ orderedNames (a.names.filterMap archiveService?) ↔
        (if a.names.contains (servicesPrefix ++ id) then _ else []) ≠ []
      have hplain := isPlain_of_isQualifiedName hid
      rw [(orderedNames_perm _).mem_iff, List.mem_filterMap]
      simp only [archiveService?_eq_some_iff, hplain.ne_empty, hplain.slash, ne_eq,
        not_false_eq_true, and_true, exists_eq_right]
      by_cases hmem : servicesPrefix ++ id ∈ a.names <;> simp [hmem]

/-! ### Whole scopes -/

/-- A scope that is made of folders and archives only. -/
inductive OnFiles : Scope → Prop where
  /-- A folder. -/
  | directory (root : Path) : OnFiles (.directory root)
  /-- An archive. -/
  | archive (path : Path) : OnFiles (.archive path)
  /-- Such scopes, one after the other. -/
  | classPath (name : String) {entries : List Scope} {parent : Option Scope}
      (hentries : ∀ s ∈ entries, OnFiles s) (hparent : ∀ s ∈ parent, OnFiles s) :
      OnFiles (.classPath name entries parent)

theorem accord_entries {files : FileTree} {entries : List Scope}
    (h : ∀ s ∈ entries, Accord files (s.serviceNames files) fun id =>
      s.resources (servicesPrefix ++ id)) :
    Accord files (entryServices files entries) fun id =>
      entryResources (servicesPrefix ++ id) entries := by
  induction entries with
  | nil =>
    simp only [entryServices, entryResources]
    exact .nil
  | cons s rest ih =>
    simp only [entryServices, entryResources]
    exact .append (h s List.mem_cons_self) (ih fun s hs => h s (List.mem_cons_of_mem _ hs))
      fun _ _ _ => List.mem_append

/-- **Services and resources are in accord** in a scope of folders and archives. -/
theorem OnFiles.accord {s : Scope} (h : s.OnFiles) (files : FileTree) :
    Accord files (s.serviceNames files) fun id => s.resources (servicesPrefix ++ id) := by
  induction h with
  | directory root =>
    rw [serviceNames]
    exact accord_directory files root
  | archive path =>
    rw [serviceNames]
    exact accord_archive files path
  | @classPath name entries parent hentries hparent ihentries ihparent =>
    have hinherited : Accord files (parentServices files parent) fun id =>
        parentResources (servicesPrefix ++ id) parent := by
      cases parent with
      | none =>
        simp only [parentServices, parentResources]
        exact .nil
      | some s =>
        simp only [parentServices, parentResources]
        exact ihparent s rfl
    simp only [serviceNames, resources]
    exact .append hinherited (accord_entries ihentries) fun id names more => by
      rw [mem_sortedNames, List.mem_append]

/-- The services of a class path are sorted. -/
theorem pairwise_of_serviceNames_classPath {files : FileTree} {name : String}
    {entries : List Scope} {parent : Option Scope} {names : List String}
    (h : (classPath name entries parent).serviceNames files = .ok names) :
    names.Pairwise (· < ·) := by
  rw [serviceNames] at h
  cases hinherited : parentServices files parent with
  | error cause =>
    rw [hinherited] at h
    cases h
  | ok inherited =>
    cases hown : entryServices files entries with
    | error cause =>
      rw [hinherited, hown] at h
      cases h
    | ok own =>
      rw [hinherited, hown] at h
      rw [← Except.ok.inj h]
      exact pairwise_sortedNames _

end Scope

namespace Settings

/-- The class path of settings is made of folders and archives. -/
theorem onFiles_build (s : Settings) (files : FileTree) : (s.build files).OnFiles := by
  refine .classPath _ (fun scope hscope => ?_) fun scope hscope => ?_
  · obtain ⟨entry, -, hentry⟩ := List.mem_filterMap.mp hscope
    rw [entryScope?] at hentry
    split at hentry
    · rw [← Option.some.inj hentry]
      exact .directory entry
    · split at hentry
      · rw [← Option.some.inj hentry]
        exact .archive entry
      · cases hentry
  · obtain ⟨home, -, rfl⟩ := Option.map_eq_some_iff.mp hscope
    refine .classPath _ (fun scope hscope => ?_) fun _ h => by cases h
    obtain ⟨path, -, rfl⟩ := List.mem_map.mp hscope
    exact .archive path

/-- A folder `srv` below the root, with a configuration file for `x.Codec`. -/
def oneFolder : FileTree :=
  { (∅ : FileTree) with entries := [(["work"], .directory), (["srv"], .directory),
      (["srv", "META-INF"], .directory), (["srv", "META-INF", "services"], .directory),
      (["srv", "META-INF", "services", "x.Codec"], .file [0x41])] }

end Settings

end ProviderDiscovery
