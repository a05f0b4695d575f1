import ProviderDiscovery.Proofs.Settings.ClassPath

/-!
# Files in an installation that do not count

The `lib` folder of an installation may hold more than archives. Files there whose names have
neither of the two extensions of archives never count: with others in their place, or without them,
the class path of the installation lists the same services and answers with the same resources
(`strays_ignored`). The extension `zip` is one of the two, though. A file with it counts as much as
one with `jar`, and if it cannot be opened, nothing is found in the installation at all
(`not_ignored_zip`).
-/

namespace ProviderDiscovery.Settings

variable {t t' : FileTree} {home : Path} {extensions : List String}

/-! ### Strays -/

/-- The locations of **strays**: names in the `lib` folder that have none of some extensions. -/
def IsStray (extensions : List String) (t : FileTree) (home : Path) (location : List String) :
    Prop :=
  ∃ folder name, t.find (home.join "lib") = .ok folder ∧ location = folder ++ [name] ∧
    ∀ ext ∈ extensions, ¬((home.join "lib").join name).HasExtension ext

/-- The folder itself is no stray. -/
theorem not_isStray_folder {folder : List String}
    (h : t.find (home.join "lib") = .ok folder) : ¬IsStray extensions t home folder := by
  rintro ⟨folder', name, hfind, heq, -⟩
  obtain rfl := Except.ok.inj (h.symm.trans hfind)
  exact absurd (congrArg List.length heq) (by simp)

/-- Both trees have the folder in the same place. -/
theorem find_lib_iff (h : t.AgreeApart (IsStray extensions t home) t') {folder : List String} :
    t.find (home.join "lib") = .ok folder ↔
      t'.find (home.join "lib") = .ok folder := by
  have hto : ∀ folder, t.find (home.join "lib") = .ok folder →
      t'.find (home.join "lib") = .ok folder := fun folder hfind =>
    (h.find_eq_ok hfind (not_isStray_folder hfind)).1
  refine ⟨hto folder, fun hfind => (h.symm.find_eq_ok hfind fun hstray => ?_).1⟩
  have ⟨folder', _, hfind', _⟩ := hstray
  obtain rfl := Except.ok.inj (hfind.symm.trans (hto folder' hfind'))
  exact not_isStray_folder hfind' hstray

/-- What is a stray in one tree is one in the other. -/
theorem agreeApart_isStray_symm (h : t.AgreeApart (IsStray extensions t home) t') :
    t'.AgreeApart (IsStray extensions t' home) t := by
  have hsame : IsStray extensions t home = IsStray extensions t' home := by
    funext location
    simp only [IsStray, find_lib_iff h]
  rw [← hsame]
  exact h.symm

section Counting

variable {name : String} {ext : String}

theorem not_isStray_append (hmem : ext ∈ extensions)
    (hname : ((home.join "lib").join name).HasExtension ext) (location : List String) :
    ¬IsStray extensions t home (location ++ [name]) := by
  rintro ⟨folder, name', -, heq, hnone⟩
  obtain ⟨-, hlast⟩ := List.append_inj' heq rfl
  obtain rfl := List.singleton_inj.mp hlast
  exact hnone ext hmem hname

/-- A name in the `lib` folder that has one of the extensions is listed in both trees. -/
theorem exists_listed (h : t.AgreeApart (IsStray extensions t home) t') (hmem : ext ∈ extensions)
    (hname : ((home.join "lib").join name).HasExtension ext)
    (hlisted : ∃ listed, t.children (home.join "lib") = .ok listed ∧ name ∈ listed) :
    ∃ listed, t'.children (home.join "lib") = .ok listed ∧ name ∈ listed := by
  obtain ⟨folder, hfind, hfolder, hsome⟩ := FileTree.exists_mem_children_iff.mp hlisted
  obtain ⟨hfind', hentry⟩ := h.find_eq_ok hfind (not_isStray_folder hfind)
  rw [h.lookup_eq (not_isStray_append hmem hname folder)] at hsome
  exact FileTree.exists_mem_children_iff.mpr ⟨folder, hfind', hentry.trans hfolder, hsome⟩

/-- A file in the `lib` folder that has one of the extensions is the same in both trees. -/
theorem entry_eq_of_isFile (h : t.AgreeApart (IsStray extensions t home) t')
    (hmem : ext ∈ extensions) (hname : ((home.join "lib").join name).HasExtension ext)
    (hfile : t.isFile ((home.join "lib").join name)) :
    t'.entry ((home.join "lib").join name) = t.entry ((home.join "lib").join name) := by
  obtain ⟨location, last, bytes, hfind, -, hplain, hlast⟩ := FileTree.exists_name_of_isFile hfile
  -- The name may hold slashes and lead elsewhere; it is the file's own name that tells.
  have hlastName : ((home.join "lib").join last).HasExtension ext := by
    obtain ⟨stem, hstem, hfileName⟩ := hname
    rw [Path.fileName?_of_getLast? hlast hplain] at hfileName
    exact ⟨stem, hstem, (Path.fileName?_join hplain _).trans hfileName⟩
  obtain ⟨hfind', hentry⟩ :=
    h.find_eq_ok hfind (not_isStray_append hmem hlastName location)
  rw [FileTree.entry, FileTree.entry, hfind, hfind', Except.map, Except.map, hentry]

end Counting

/-! ### Archives -/

theorem exists_extension_of_namesArchive {p : Path} (h : NamesArchive p) :
    ∃ ext ∈ ["jar", "zip"], p.HasExtension ext := by
  simpa [NamesArchive] using h

/-- Both trees install the same. -/
theorem Installs.of_agreeApart (h : t.AgreeApart (IsStray ["jar", "zip"] t home) t')
    {names : List String} (hnames : Installs t home names) : Installs t' home names where
  ascending := hnames.ascending
  mem_iff name := by
    have hsymm := agreeApart_isStray_symm h
    rw [hnames.mem_iff, ← and_assoc, ← and_assoc]
    refine and_congr_left fun hname => ?_
    obtain ⟨ext, hmem, hext⟩ := exists_extension_of_namesArchive hname
    refine and_congr ⟨exists_listed h hmem hext, exists_listed hsymm hmem hext⟩
      ⟨fun hfile => ?_, fun hfile => ?_⟩
    · rwa [FileTree.isFile, entry_eq_of_isFile h hmem hext hfile]
    · rwa [FileTree.isFile, entry_eq_of_isFile hsymm hmem hext hfile]

/-- The archives of an installation are the same in both trees, and hold the same. -/
theorem installedArchives_eq_of_agreeApart (h : t.AgreeApart (IsStray ["jar", "zip"] t home) t') :
    installedArchives t' home = installedArchives t home ∧
      ∀ path ∈ installedArchives t home,
        Scope.openArchive t' path = Scope.openArchive t path := by
  obtain ⟨names, hnames, hpaths⟩ := exists_installs t home
  obtain ⟨names', hnames', hpaths'⟩ := exists_installs t' home
  refine ⟨by rw [hpaths, hpaths', (hnames.of_agreeApart h).unique hnames'], fun path hpath => ?_⟩
  rw [hpaths] at hpath
  obtain ⟨name, hname, rfl⟩ := List.mem_map.mp hpath
  obtain ⟨-, hfile, harchive⟩ := (hnames.mem_iff name).mp hname
  obtain ⟨ext, hmem, hext⟩ := exists_extension_of_namesArchive harchive
  exact Scope.openArchive_eq_of_entry_eq (entry_eq_of_isFile h hmem hext hfile) h.archives_eq.symm

/-! ### The class path of an installation -/

/-- The leaves of an installation's class path. -/
theorem leaves_build_home (home : Path) (t : FileTree) :
    (build ⟨[], some home⟩ t).leaves = (installedArchives t home).map Scope.archive := by
  rw [leaves_build]
  exact List.append_nil _

/-- Its services are those of the archives. -/
theorem serviceNames_build_home (home : Path) (t files : FileTree) :
    (build ⟨[], some home⟩ t).serviceNames files =
      ((installedArchives t home).mapM (Scope.archiveServices files)).map
        (sortedNames ∘ List.flatten) := by
  -- The parent counts as an entry, and its entries in its place.
  have hparent : (build ⟨[], some home⟩ t).serviceNames files =
      (Scope.classPath "application" [installed t home] none).serviceNames files := by
    rw [build, Scope.serviceNames_classPath, Scope.serviceNames_classPath]
    rfl
  have hservices : Scope.serviceNames files ∘ Scope.archive = Scope.archiveServices files := by
    funext path
    rw [Function.comp_apply, Scope.serviceNames]
  rw [hparent, installed]
  refine (Scope.serviceNames_classPath_nested files _ [] _ _ none [] none).trans ?_
  rw [Scope.serviceNames_classPath, Option.toList_none, List.nil_append, List.nil_append,
    List.append_nil, List.nil_append, Scope.entryServices_eq_mapM, List.mapM_map, hservices]
  cases (installedArchives t home).mapM (Scope.archiveServices files) <;> rfl

/-- Its resources are those of the archives. -/
theorem run_resources_build_home (home : Path) (name : String) (w : World) :
    (((build ⟨[], some home⟩ t).resources name).run.run w).1 =
      ((installedArchives t home).mapM fun path => Scope.archiveResources w.files path name).map
        List.flatten := by
  rw [((onFiles_build ⟨[], some home⟩ t).alwaysAnswers w.files name w rfl).1, leaves_build_home,
    List.mapM_map]
  rfl

/-- One archive that cannot be opened is enough for a failure, whatever the archives are for. -/
theorem exists_error_of_openArchive {paths : List Path} {path : Path} (hmem : path ∈ paths)
    {cause : ScopeError} (h : Scope.openArchive t path = .error cause) :
    ∃ first, ∀ {β : Type} (f : Path → Archive → β),
      paths.mapM (fun path => (Scope.openArchive t path).map (f path)) = .error first := by
  induction paths with
  | nil => cases hmem
  | cons path' rest ih =>
    cases hopen : Scope.openArchive t path' with
    | error first =>
      refine ⟨first, fun f => ?_⟩
      rw [List.mapM_cons, hopen]
      rfl
    | ok a =>
      have hrest : path ∈ rest := (List.mem_cons.mp hmem).resolve_left fun heq => by
        rw [← heq, h] at hopen
        cases hopen
      obtain ⟨first, hfirst⟩ := ih hrest
      refine ⟨first, fun f => ?_⟩
      rw [List.mapM_cons, hopen, hfirst]
      rfl

/-- **Strays do not count.** Take a class path with an installation and no entries. If two trees
agree apart from files in the installation's `lib` folder that have neither of the extensions of
archives, the class path lists the same services in both, or fails with the same error, and so it
does for the resources of each name. Files that have one of the extensions are no strays: one of
them that cannot be opened makes all of this fail, with one error for everything. -/
theorem strays_ignored (home : Path) (t : FileTree) :
    let settings : Settings := ⟨[], some home⟩
    let answer := fun (t : FileTree) (name : String) (w : World) =>
      (((settings.build t).resources name).run.run w).1
    (∀ t', t.AgreeApart (IsStray ["jar", "zip"] t home) t' →
      (settings.build t').serviceNames t' = (settings.build t).serviceNames t ∧
      ∀ name w w', w.files = t → w'.files = t' → answer t' name w' = answer t name w) ∧
    ∀ file, (∃ listed, t.children (home.join "lib") = .ok listed ∧ file ∈ listed) →
      t.isFile ((home.join "lib").join file) → NamesArchive ((home.join "lib").join file) →
      ∀ cause, Scope.openArchive t ((home.join "lib").join file) = .error cause →
        ∃ first, (settings.build t).serviceNames t = .error first ∧
          ∀ name w, w.files = t → answer t name w = .error first := by
  intro settings answer
  refine ⟨fun t' h => ?_, fun file hlisted hfile hname cause hcause => ?_⟩
  · obtain ⟨harchives, hopen⟩ := installedArchives_eq_of_agreeApart h
    refine ⟨?_, fun name w w' hw hw' => ?_⟩
    · rw [serviceNames_build_home, serviceNames_build_home, harchives]
      refine congrArg _ (mapM_congr_of_mem fun path hpath => ?_)
      rw [Scope.archiveServices, hopen path hpath, Scope.archiveServices]
    · refine (run_resources_build_home home name w').trans
        (Eq.trans ?_ (run_resources_build_home home name w).symm)
      rw [harchives, hw, hw']
      refine congrArg _ (mapM_congr_of_mem fun path hpath => ?_)
      rw [Scope.archiveResources, hopen path hpath, Scope.archiveResources]
  · obtain ⟨names, hnames, hpaths⟩ := exists_installs t home
    have hmem : (home.join "lib").join file ∈ installedArchives t home := by
      rw [hpaths]
      exact List.mem_map_of_mem ((hnames.mem_iff file).mpr ⟨hlisted, hfile, hname⟩)
    obtain ⟨first, hfirst⟩ := exists_error_of_openArchive hmem hcause
    refine ⟨first, ?_, fun name w hw => (run_resources_build_home home name w).trans ?_⟩
    · rw [serviceNames_build_home]
      exact congrArg (Except.map _) (hfirst _)
    · rw [hw]
      exact congrArg (Except.map _) (hfirst _)

/-- The installation `h` with one more file in its `lib` folder. -/
def installationWith (name : String) (bytes : List UInt8) : FileTree :=
  { installation ["a.jar"] with
    entries := (installation ["a.jar"]).entries ++ [(["work", "h", "lib", name], .file bytes)] }

/-- A text in the `lib` folder does not count, and an archive that cannot be opened does. -/
theorem strays_ignored_installation :
    (build ⟨[], some ⟨"h"⟩⟩ (installationWith "notes.txt" [0x42])).serviceNames
        (installationWith "notes.txt" [0x42]) = .ok ["x"] ∧
      ∃ first, (build ⟨[], some ⟨"h"⟩⟩ (installationWith "notes.zip" [0x42])).serviceNames
        (installationWith "notes.zip" [0x42]) = .error first := by
  have hnotes : IsStray ["jar", "zip"] (installation ["a.jar"]) ⟨"h"⟩
      ["work", "h", "lib", "notes.txt"] := by
    refine ⟨["work", "h", "lib"], "notes.txt", by decide +kernel, rfl, ?_⟩
    rw [List.forall_mem_cons, List.forall_mem_singleton,
      ← Path.extension?_eq_some_iff (by decide), ← Path.extension?_eq_some_iff (by decide)]
    decide +kernel
  constructor
  · obtain ⟨hsame, -⟩ := strays_ignored ⟨"h"⟩ (installation ["a.jar"])
    have hmore : (installation ["a.jar"]).AgreeApart _ (installationWith "notes.txt" [0x42]) :=
      FileTree.agreeApart_append_file (by decide +kernel) [0x42] hnotes
    rw [(hsame _ hmore).1]
    decide +kernel
  · obtain ⟨-, hfails⟩ := strays_ignored ⟨"h"⟩ (installationWith "notes.zip" [0x42])
    have hlisted : (installationWith "notes.zip" [0x42]).children ⟨"h/lib"⟩ =
        .ok ["a.jar", "notes.zip"] := by decide +kernel
    have hclosed : (Scope.openArchive (installationWith "notes.zip" [0x42])
        ⟨"h/lib/notes.zip"⟩).isOk = false := by decide +kernel
    cases hopen : Scope.openArchive (installationWith "notes.zip" [0x42]) ⟨"h/lib/notes.zip"⟩ with
    | ok a =>
      rw [hopen] at hclosed
      cases hclosed
    | error cause =>
      obtain ⟨first, hfirst, -⟩ := hfails "notes.zip" ⟨_, hlisted, by decide⟩ (by decide +kernel)
        (isArchiveName_iff.mp (by decide +kernel)) cause hopen
      exact ⟨first, hfirst⟩

/-- The extension `zip` counts like `jar`: a text that has it keeps everything from being found,
though the file is a stray as far as `jar` goes. -/
theorem not_ignored_zip :
    let settings : Settings := ⟨[], some ⟨"h"⟩⟩
    let files := installation ["a.jar"]
    let files' := installationWith "notes.zip" [0x42]
    files.AgreeApart (IsStray ["jar"] files ⟨"h"⟩) files' ∧
      (settings.build files).serviceNames files = .ok ["x"] ∧
      (settings.build files').serviceNames files' =
        .error (.archive ⟨"h/lib/notes.zip", .damagedArchive⟩) ∧
      (((settings.build files').resources "META-INF/services/x").run.run (.fresh files' ∅)).1.map
        (·.map Resource.id) =
          .error (.archive ⟨"h/lib/notes.zip", .damagedArchive⟩) := by
  intro settings files files'
  have hnotes : IsStray ["jar"] files ⟨"h"⟩ ["work", "h", "lib", "notes.zip"] := by
    refine ⟨["work", "h", "lib"], "notes.zip", by decide +kernel, rfl, ?_⟩
    rw [List.forall_mem_singleton, ← Path.extension?_eq_some_iff (by decide)]
    decide +kernel
  refine ⟨FileTree.agreeApart_append_file (by decide +kernel) [0x42] hnotes, ?_, ?_, ?_⟩ <;>
    decide +kernel

end ProviderDiscovery.Settings
