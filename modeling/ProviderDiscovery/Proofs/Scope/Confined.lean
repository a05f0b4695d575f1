import ProviderDiscovery.Proofs.Scope.Delegation
import ProviderDiscovery.Proofs.Scope.Exploded

/-!
# Where the resources of a capability lie

The identifier of a capability becomes part of a path. A qualified name holds no slash and is
neither a dot nor two, so what is located in folders and archives under it lies in their services
folders: `Scope.InServices` says where. An identifier that is no qualified name is not looked for at
all.
-/

namespace ProviderDiscovery.Scope

/-- A resource lies **in the services folder** of a folder or an archive that a scope is made of,
under a name. -/
inductive InServices (s : Scope) (id : String) : Resource → Prop where
  /-- The file of the name in the services folder below a folder. -/
  | file {root : Path} (hroot : .directory root ∈ s.leaves) :
      InServices s id (.ofFile (root.join (servicesPrefix ++ id)))
  /-- The entry of the name in the services folder of an archive. -/
  | entry {path : Path} (hpath : .archive path ∈ s.leaves) :
      InServices s id (.ofArchiveEntry path (servicesPrefix ++ id))

/-- What is read of a resource **stands in the services folder** of a folder or an archive that a
scope is made of, under a name. -/
inductive ReadsInServices (s : Scope) (id : String) (files : FileTree) (bytes : List UInt8) :
    Resource → Prop where
  /-- The bytes are those of the file in the services folder below the location of the folder. -/
  | file {root : Path} {location : List String} (hroot : .directory root ∈ s.leaves)
      (hleads : files.follow [] (files.route root) = .ok location)
      (hlookup : files.lookup (location ++ serviceLocation id) = some (.file bytes)) :
      ReadsInServices s id files bytes (.ofFile (root.join (servicesPrefix ++ id)))
  /-- The bytes are those of the entry in the services folder of the archive. -/
  | entry {path : Path} {a : Archive} (hpath : .archive path ∈ s.leaves)
      (hopen : openArchive files path = .ok a) (hread : a.read (servicesPrefix ++ id) = .ok bytes) :
      ReadsInServices s id files bytes (.ofArchiveEntry path (servicesPrefix ++ id))

/-! ### Files below folders -/

/-- The path of a file in the services folder has three names more than the path of the folder. -/
theorem names_join_servicesPrefix {id : String} (hid : Path.IsPlain id) (root : Path) :
    (root.join (servicesPrefix ++ id)).names = root.names ++ serviceLocation id := by
  have hplain := isPlain_of_mem_serviceLocation hid
  rw [← textOf_serviceLocation, Path.names_join (Path.isAbsolute_textOf hplain),
    Path.names_textOf hplain]

/-- It starts where the path of the folder starts. -/
theorem isAbsolute_join_servicesPrefix {id : String} (hid : Path.IsPlain id) (root : Path) :
    (root.join (servicesPrefix ++ id)).isAbsolute = root.isAbsolute := by
  rw [← textOf_serviceLocation,
    Path.isAbsolute_join (Path.isAbsolute_textOf (isPlain_of_mem_serviceLocation hid))]

/-- What is read from it stands in the services folder below the place that the folder has. -/
theorem exists_lookup_of_read_service {files : FileTree} {id : String} (hid : Path.IsPlain id)
    {root : Path} {bytes : List UInt8}
    (h : files.read (root.join (servicesPrefix ++ id)) = .ok bytes) :
    ∃ location, files.follow [] (files.route root) = .ok location ∧
      files.lookup (location ++ serviceLocation id) = some (.file bytes) := by
  rw [← textOf_serviceLocation] at h
  exact FileTree.exists_lookup_of_read_join (isPlain_of_mem_serviceLocation hid) h

/-! ### What is read -/

/-- An archive that can be opened for reading can be opened. -/
theorem openArchive_of_opened {files : FileTree} {path : Path} {a : Archive}
    (h : (files.entry path).bind files.archives = .ok a) : openArchive files path = .ok a := by
  rw [openArchive]
  cases hentry : files.entry path with
  | error fault =>
    rw [hentry] at h
    cases h
  | ok e =>
    rw [hentry] at h
    simp only [show files.archives e = .ok a from h]

/-- **What is read of a resource in the services folders stands there.** It is all that is read: if
the reading breaks off, the resource is a folder, of which nothing is read. -/
theorem InServices.reads {s : Scope} {id : String} (hid : Path.IsPlain id) {r : Resource}
    (h : s.InServices id r) (files : FileTree) (bytes : List UInt8) :
    (r.opened files = .ok bytes → s.ReadsInServices id files bytes r) ∧
      ∀ cause, r.opened files = .broken bytes cause → bytes = [] ∧ cause = .isADirectory := by
  cases h with
  | @file root hroot =>
    refine ⟨fun hopened => ?_, fun cause hopened => ?_⟩
    · have hread := Resource.read_ofFile (root.join (servicesPrefix ++ id)) files
      rw [Resource.read, hopened] at hread
      obtain ⟨location, hleads, hlookup⟩ := exists_lookup_of_read_service hid hread.symm
      exact .file hroot hleads hlookup
    · change Resource.openFile files (root.join (servicesPrefix ++ id)) = _ at hopened
      rw [Resource.openFile] at hopened
      split at hopened
      · cases hopened
      · cases hopened
      · obtain ⟨rfl, rfl⟩ := Opened.broken.inj hopened
        exact ⟨rfl, rfl⟩
  | @entry path hpath =>
    refine ⟨fun hopened => ?_, fun cause hopened => ?_⟩
    · have hread := Resource.read_ofArchiveEntry path (servicesPrefix ++ id) files
      rw [Resource.read, hopened] at hread
      cases hopen : (files.entry path).bind files.archives with
      | error fault =>
        rw [hopen] at hread
        cases hread
      | ok a =>
        rw [hopen] at hread
        exact .entry hpath (openArchive_of_opened hopen) hread.symm
    · change Resource.openArchiveEntry files path (servicesPrefix ++ id) = _ at hopened
      rw [Resource.openArchiveEntry] at hopened
      split at hopened
      · cases hopened
      · split at hopened <;> cases hopened

/-! ### What is located -/

/-- The answer of a folder or an archive by itself. -/
def leafAnswer (files : FileTree) (name : String) : Scope → Except ScopeError (List Resource)
  | .directory root => .ok (directoryResources files root name)
  | .archive path => archiveResources files path name
  | _ => .ok []

/-- A scope of folders and archives has no other leaves. -/
theorem OnFiles.leaf_cases {s : Scope} (hs : s.OnFiles) :
    ∀ leaf ∈ s.leaves, (∃ root, leaf = .directory root) ∨ ∃ path, leaf = .archive path := by
  induction hs with
  | directory root =>
    rw [leaves, List.forall_mem_singleton]
    exact .inl ⟨root, rfl⟩
  | archive path =>
    rw [leaves, List.forall_mem_singleton]
    exact .inr ⟨path, rfl⟩
  | classPath name hentries hparent ihentries ihparent =>
    intro leaf hleaf
    rw [leaves_classPath, List.mem_flatMap] at hleaf
    obtain ⟨part, hpart, hleaf⟩ := hleaf
    rcases List.mem_append.mp hpart with hpart | hpart
    · exact ihparent part (Option.mem_toList.mp hpart) leaf hleaf
    · exact ihentries part hpart leaf hleaf

/-- Folders and archives answer what the files hold. -/
theorem OnFiles.run_resources_leaf {s : Scope} (hs : s.OnFiles) (name : String) {leaf : Scope}
    (hleaf : leaf ∈ s.leaves) (w : World) :
    ((leaf.resources name).run.run w).1 = leafAnswer w.files name leaf := by
  rcases hs.leaf_cases leaf hleaf with ⟨root, rfl⟩ | ⟨path, rfl⟩
  · rw [resources, leafAnswer]
    rfl
  · have harchive : AlwaysAnswers w.files _ (archiveResources w.files path name) := .attempt_of _
    rw [resources, leafAnswer]
    exact (harchive w rfl).1

theorem OnFiles.alwaysAnswers {s : Scope} (hs : s.OnFiles) (files : FileTree) (name : String) :
    AlwaysAnswers files (s.resources name).run
      ((s.leaves.mapM (leafAnswer files name)).map List.flatten) :=
  alwaysAnswers_resources_of_leaves fun leaf hleaf w hw => by
    rw [hs.run_resources_leaf name hleaf, hw]

theorem exists_of_map_eq_ok {α β ε : Type} {f : α → β} {answer : Except ε α} {b : β}
    (h : answer.map f = .ok b) : ∃ a, answer = .ok a ∧ f a = b := by
  cases answer with
  | error e => cases h
  | ok a => exact ⟨a, rfl, Except.ok.inj h⟩

/-- What an answer of a whole list holds is from one of its members. -/
theorem exists_mem_of_mapM_eq_ok {α β ε : Type} {answer : α → Except ε (List β)} {l : List α}
    {found : List (List β)} (h : l.mapM answer = .ok found) {b : β} (hb : b ∈ found.flatten) :
    ∃ a ∈ l, ∃ bs, answer a = .ok bs ∧ b ∈ bs := by
  induction l generalizing found with
  | nil =>
    obtain rfl := Except.ok.inj h
    cases hb
  | cons a rest ih =>
    rw [List.mapM_cons] at h
    cases ha : answer a with
    | error e =>
      rw [ha] at h
      cases h
    | ok bs =>
      cases hrest : rest.mapM answer with
      | error e =>
        rw [ha, hrest] at h
        cases h
      | ok more =>
        rw [ha, hrest] at h
        obtain rfl := Except.ok.inj h
        rcases List.mem_append.mp hb with hb | hb
        · exact ⟨a, List.mem_cons_self, bs, ha, hb⟩
        · obtain ⟨a', ha', hanswer⟩ := ih hrest hb
          exact ⟨a', List.mem_cons_of_mem a ha', hanswer⟩

/-- **What is located lies in the services folders.** -/
theorem OnFiles.inServices {s : Scope} (hs : s.OnFiles) {id : String} {w : World}
    {rs : List Resource} (h : ((s.locate ⟨id⟩).run.run w).1 = .ok rs) :
    isQualifiedName id ∧ ∀ r ∈ rs, s.InServices id r := by
  cases hid : isQualifiedName id with
  | false =>
    rw [run_locate_of_not_isQualifiedName hid] at h
    cases h
  | true =>
    refine ⟨rfl, fun r hr => ?_⟩
    have hanswers := alwaysAnswers_locate hid (hs.alwaysAnswers w.files (servicesPrefix ++ id))
    rw [(hanswers w rfl).1] at h
    obtain ⟨found, hfound, rfl⟩ := exists_of_map_eq_ok h
    obtain ⟨leaf, hleaf, given, hgiven, hr⟩ := exists_mem_of_mapM_eq_ok hfound hr
    rcases hs.leaf_cases leaf hleaf with ⟨root, rfl⟩ | ⟨path, rfl⟩
    · obtain rfl := Except.ok.inj hgiven
      rw [directoryResources] at hr
      split at hr
      · obtain rfl := List.mem_singleton.mp hr
        exact .file hleaf
      · cases hr
    · obtain ⟨a, -, rfl⟩ := exists_of_map_eq_ok hgiven
      split at hr
      · obtain rfl := List.mem_singleton.mp hr
        exact .entry hleaf
      · cases hr

end ProviderDiscovery.Scope
