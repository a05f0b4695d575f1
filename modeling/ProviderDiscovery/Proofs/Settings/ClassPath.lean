import Mathlib.Data.List.Forall2
import Mathlib.Data.List.ReduceOption
import ProviderDiscovery.Proofs.Files.Agreement
import ProviderDiscovery.Proofs.Scope.Confined
import ProviderDiscovery.Proofs.Scope.Exploded

/-!
# The class path of settings

Settings come from an environment and from explicit values, and the files decide what becomes of
them: which entries count and as what, and which archives an installation has. `HasParts` says so
without the functions that compute it, part by part and in order, and `class_path_as_documented`
that the class path of the settings has the resources of these parts. The archives of an
installation are given by their names and by the order of these names (`Installs`), so it does not
matter in which order a folder lists its names; nor does it for the services.
-/

namespace ProviderDiscovery

/-! ### Services and the order of listing -/

namespace Scope

variable {files files' : FileTree}

theorem openArchive_eq_of_entry_eq {path : Path} (h : files.entry path = files'.entry path)
    (harchives : files.archives = files'.archives) :
    openArchive files path = openArchive files' path := by
  rw [openArchive, h, harchives, openArchive]

/-- A folder lists the same services, in whatever order it lists its names. -/
theorem directoryServices_eq_of_sameFiles (h : files.SameFiles files') (root : Path) :
    directoryServices files root = directoryServices files' root := by
  rw [directoryServices, directoryServices, h.isDirectory_eq]
  cases hfolder : files'.isDirectory (root.join servicesPrefix) with
  | false => rfl
  | true =>
    obtain ⟨names', hnames'⟩ := FileTree.exists_children_of_isDirectory hfolder
    rw [← h.isDirectory_eq] at hfolder
    obtain ⟨names, hnames⟩ := FileTree.exists_children_of_isDirectory hfolder
    have hmem : ∀ name, name ∈ names ↔ name ∈ names' := fun name => by
      simpa [hnames, hnames'] using h.mem_children_iff (root.join servicesPrefix) name
    simp only [hnames, hnames', h.isFile_eq]
    exact congrArg Except.ok (sortedNames_eq_of_mem_iff fun name => by
      rw [List.mem_filter, List.mem_filter, hmem])

mutual

/-- **Services do not depend on the order of listing.** -/
theorem serviceNames_eq_of_sameFiles (h : files.SameFiles files') : ∀ s : Scope,
    s.serviceNames files = s.serviceNames files'
  | .memory name services parent => by rw [serviceNames, serviceNames]
  | .directory root => by
    rw [serviceNames, serviceNames, directoryServices_eq_of_sameFiles h]
  | .archive path => by
    rw [serviceNames, serviceNames, archiveServices, archiveServices,
      openArchive_eq_of_entry_eq (h.entry_eq path) h.archives_eq]
  | .classPath _ entries parent => by
    rw [serviceNames, serviceNames, parentServices_eq_of_sameFiles h parent,
      entryServices_eq_of_sameFiles h entries]
  | .custom p services parent => by rw [serviceNames, serviceNames]

theorem parentServices_eq_of_sameFiles (h : files.SameFiles files') : ∀ parent : Option Scope,
    parentServices files parent = parentServices files' parent
  | none => by rw [parentServices, parentServices]
  | some parent => by
    rw [parentServices, parentServices, serviceNames_eq_of_sameFiles h parent]

theorem entryServices_eq_of_sameFiles (h : files.SameFiles files') : ∀ entries : List Scope,
    entryServices files entries = entryServices files' entries
  | [] => by rw [entryServices, entryServices]
  | entry :: rest => by
    rw [entryServices, entryServices, serviceNames_eq_of_sameFiles h entry,
      entryServices_eq_of_sameFiles h rest]

end

end Scope

namespace Settings

/-! ### The choice of entries and of an installation -/

/-- Which **entries** are chosen: those that are given, if there are any, and otherwise the paths of
the environment's list that are not empty. Colons separate the paths of the list. -/
inductive ChoosesEntries : Option String → List Path → List Path → Prop where
  | given {listed : Option String} {entries : List Path} (h : entries ≠ []) :
      ChoosesEntries listed entries entries
  | listed {paths : List String} (hne : paths ≠ []) (hcolon : ∀ p ∈ paths, ':' ∉ p.toList) :
      ChoosesEntries (some (":".intercalate paths)) [] ((paths.filter (· ≠ "")).map Path.mk)
  | unset : ChoosesEntries none [] []

/-- Which **installation** is chosen: the one that is given, and otherwise the one that the
environment names, unless the name is empty. -/
inductive ChoosesHome : Option String → Option Path → Option Path → Prop where
  | given (named : Option String) (home : Path) : ChoosesHome named (some home) (some home)
  | named {text : String} (h : text ≠ "") : ChoosesHome (some text) none (some ⟨text⟩)
  | empty : ChoosesHome (some "") none none
  | unset : ChoosesHome none none none

theorem toList_intercalate_colon (paths : List String) :
    (":".intercalate paths).toList = [':'].intercalate (paths.map String.toList) := by
  rw [String.toList_intercalate]
  rfl

/-- The paths of a list are those between its colons, without the empty ones. -/
theorem splitPaths_intercalate {paths : List String} (hne : paths ≠ [])
    (hcolon : ∀ p ∈ paths, ':' ∉ p.toList) :
    splitPaths (":".intercalate paths) = (paths.filter (· ≠ "")).map Path.mk := by
  rw [splitPaths, toList_intercalate_colon,
    Text.segments_intercalate (by simpa using hne) (by simpa using hcolon), List.filter_map,
    List.map_map]
  simp [Function.comp_def]

/-- Each list has paths between its colons. -/
theorem exists_eq_intercalate (list : String) :
    ∃ paths, paths ≠ [] ∧ (∀ p ∈ paths, ':' ∉ p.toList) ∧ list = ":".intercalate paths := by
  refine ⟨(Text.segments ':' list.toList).map String.ofList, ?_, ?_, ?_⟩
  · simpa using Text.segments_ne_nil ':' list.toList
  · simpa using fun s => Text.not_mem_of_mem_segments (s := s)
  · rw [← String.toList_inj, toList_intercalate_colon, List.map_map]
    simp [Function.comp_def, Text.intercalate_segments]

theorem choosesEntries_iff {listed : Option String} {entries chosen : List Path}
    (named : Option String) (home : Option Path) :
    ChoosesEntries listed entries chosen ↔
      chosen = ((ofEnvironment listed named).merge entries home).entries := by
  simp only [merge, ofEnvironment]
  constructor
  · rintro (h | ⟨hne, hcolon⟩ | _)
    · rw [if_neg h]
    · rw [if_pos rfl, Option.map_some, splitPaths_intercalate hne hcolon]
      rfl
    · rfl
  · rintro rfl
    by_cases h : entries = []
    · rw [if_pos h, h]
      cases listed with
      | none => exact .unset
      | some list =>
        obtain ⟨paths, hne, hcolon, rfl⟩ := exists_eq_intercalate list
        rw [Option.map_some, Option.getD_some, splitPaths_intercalate hne hcolon]
        exact .listed hne hcolon
    · rw [if_neg h]
      exact .given h

theorem choosesHome_iff {named : Option String} {home chosen : Option Path}
    (listed : Option String) (entries : List Path) :
    ChoosesHome named home chosen ↔
      chosen = ((ofEnvironment listed named).merge entries home).home := by
  simp only [merge, ofEnvironment]
  constructor
  · rintro (_ | h | _ | _)
    · rfl
    · simp [Option.filter, h]
    · rfl
    · rfl
  · rintro rfl
    cases home with
    | some home => exact .given named home
    | none =>
      cases named with
      | none => exact .unset
      | some text =>
        by_cases h : text = ""
        · rw [h]
          exact .empty
        · simpa [Option.filter, h] using ChoosesHome.named h

/-! ### What counts -/

/-- The name of a file **names an archive** by its extension. -/
def NamesArchive (p : Path) : Prop := p.HasExtension "jar" ∨ p.HasExtension "zip"

theorem isArchiveName_iff {p : Path} : isArchiveName p ↔ NamesArchive p := by
  rw [isArchiveName, Bool.or_eq_true, beq_iff_eq, beq_iff_eq,
    Path.extension?_eq_some_iff (by decide), Path.extension?_eq_some_iff (by decide), NamesArchive]

/-- What an entry **counts as**: a folder, or an archive, or nothing. -/
inductive CountsAs (files : FileTree) (entry : Path) : Option Scope → Prop where
  | folder (h : files.isDirectory entry) : CountsAs files entry (some (.directory entry))
  | archive (hfile : files.isFile entry) (hname : NamesArchive entry) :
      CountsAs files entry (some (.archive entry))
  | skipped (hfolder : ¬files.isDirectory entry)
      (harchive : ¬(files.isFile entry ∧ NamesArchive entry)) : CountsAs files entry none

theorem isDirectory_eq_false_of_isFile {files : FileTree} {p : Path} (h : files.isFile p) :
    files.isDirectory p = false := by
  rw [FileTree.isFile] at h
  rw [FileTree.isDirectory]
  split at h
  · rename_i hentry
    rw [hentry]
  · cases h

theorem countsAs_iff {files : FileTree} {entry : Path} {scope? : Option Scope} :
    CountsAs files entry scope? ↔ scope? = entryScope? files entry := by
  rw [entryScope?]
  constructor
  · rintro (h | ⟨hfile, hname⟩ | ⟨hfolder, harchive⟩)
    · rw [if_pos h]
    · rw [isDirectory_eq_false_of_isFile hfile, if_neg Bool.false_ne_true, hfile,
        isArchiveName_iff.mpr hname]
      rfl
    · rw [if_neg hfolder, if_neg (by rwa [Bool.and_eq_true, isArchiveName_iff])]
  · rintro rfl
    split
    · exact .folder ‹_›
    split
    · rename_i h
      rw [Bool.and_eq_true, isArchiveName_iff] at h
      exact .archive h.1 h.2
    · rename_i hfolder harchive
      rw [Bool.and_eq_true, isArchiveName_iff] at harchive
      exact .skipped hfolder harchive

/-- What an installation **installs**: the files in its `lib` folder that are named like archives,
in the order of their names. -/
structure Installs (files : FileTree) (home : Path) (names : List String) : Prop where
  ascending : names.Pairwise (· < ·)
  mem_iff : ∀ name, name ∈ names ↔
    (∃ listed, files.children (home.join "lib") = .ok listed ∧ name ∈ listed) ∧
      files.isFile ((home.join "lib").join name) ∧ NamesArchive ((home.join "lib").join name)

theorem Installs.unique {files : FileTree} {home : Path} {names more : List String}
    (h : Installs files home names) (hmore : Installs files home more) : names = more :=
  Scope.eq_of_pairwise_of_mem_iff h.ascending hmore.ascending fun name =>
    (h.mem_iff name).trans (hmore.mem_iff name).symm

/-- The archives of an installation are those that it installs. -/
theorem exists_installs (files : FileTree) (home : Path) :
    ∃ names, Installs files home names ∧
      installedArchives files home = names.map (home.join "lib").join := by
  rw [installedArchives]
  cases hlisted : files.children (home.join "lib") with
  | error fault =>
    exact ⟨[], ⟨.nil, fun name => by simp [hlisted]⟩, rfl⟩
  | ok listed =>
    refine ⟨(sortedNames listed).filter fun name =>
      files.isFile ((home.join "lib").join name) && isArchiveName ((home.join "lib").join name),
      ⟨(pairwise_sortedNames listed).filter _, fun name => ?_⟩, List.filter_map⟩
    rw [List.mem_filter, mem_sortedNames, Bool.and_eq_true, isArchiveName_iff, hlisted]
    simp

/-! ### Parts -/

/-- The **parts** of a class path, in order: the archives of the installation, if there is one, and
then the entries that count. -/
inductive HasParts (files : FileTree) : Option Path → List Path → List Scope → Prop where
  | alone {entries : List Path} {own : List (Option Scope)}
      (hown : List.Forall₂ (CountsAs files) entries own) :
      HasParts files none entries own.reduceOption
  | installed {home : Path} {names : List String} {entries : List Path} {own : List (Option Scope)}
      (hnames : Installs files home names) (hown : List.Forall₂ (CountsAs files) entries own) :
      HasParts files (some home) entries
        (names.map (fun name => .archive ((home.join "lib").join name)) ++ own.reduceOption)

theorem forall₂_countsAs_iff {files : FileTree} {entries : List Path} {own : List (Option Scope)} :
    List.Forall₂ (CountsAs files) entries own ↔ own = entries.map (entryScope? files) := by
  have hcounts : CountsAs files = fun entry scope? => entryScope? files entry = scope? := by
    funext entry scope?
    exact propext (countsAs_iff.trans eq_comm)
  rw [hcounts, ← List.forall₂_map_left_iff, List.forall₂_eq_eq_eq]
  exact eq_comm

/-- Folders and archives are not taken apart. -/
theorem flatMap_leaves_eq_self {ss : List Scope} (h : ∀ s ∈ ss, s.leaves = [s]) :
    ss.flatMap Scope.leaves = ss := by
  rw [List.flatMap_congr h, List.flatMap_singleton']

theorem leaves_of_entryScope? {files : FileTree} {entry : Path} {s : Scope}
    (h : entryScope? files entry = some s) : s.leaves = [s] := by
  cases countsAs_iff.mpr h.symm with
  | folder => rw [Scope.leaves]
  | archive => rw [Scope.leaves]

theorem leaves_build (entries : List Path) (home : Option Path) (files : FileTree) :
    (build ⟨entries, home⟩ files).leaves =
      (home.map fun home => (installedArchives files home).map Scope.archive).getD [] ++
        entries.filterMap (entryScope? files) := by
  have hentries : (entries.filterMap (entryScope? files)).flatMap Scope.leaves =
      entries.filterMap (entryScope? files) :=
    flatMap_leaves_eq_self fun s hs => by
      obtain ⟨entry, -, hentry⟩ := List.mem_filterMap.mp hs
      exact leaves_of_entryScope? hentry
  rw [build, Scope.leaves_classPath, List.flatMap_append, hentries]
  cases home with
  | none => rfl
  | some home =>
    have harchives : ((installedArchives files home).map Scope.archive).flatMap Scope.leaves =
        (installedArchives files home).map Scope.archive :=
      flatMap_leaves_eq_self fun s hs => by
        obtain ⟨path, -, rfl⟩ := List.mem_map.mp hs
        rw [Scope.leaves]
    simp [installed, Scope.leaves_classPath, harchives]

/-- **The class path of settings is put together from its parts.** -/
theorem hasParts_iff {files : FileTree} {home : Option Path} {entries : List Path}
    {parts : List Scope} :
    HasParts files home entries parts ↔ parts = (build ⟨entries, home⟩ files).leaves := by
  have hown : (entries.map (entryScope? files)).reduceOption =
      entries.filterMap (entryScope? files) := by
    rw [List.reduceOption, List.filterMap_map]
    rfl
  rw [leaves_build]
  constructor
  · rintro (hcounts | ⟨hnames, hcounts⟩)
    · rw [forall₂_countsAs_iff.mp hcounts, hown]
      rfl
    · rename_i home names own
      obtain ⟨names', hnames', harchives⟩ := exists_installs files home
      rw [forall₂_countsAs_iff.mp hcounts, hown, hnames.unique hnames', Option.map_some,
        Option.getD_some, harchives, List.map_map]
      rfl
  · rintro rfl
    rw [← hown]
    cases home with
    | none => exact .alone (forall₂_countsAs_iff.mpr rfl)
    | some home =>
      obtain ⟨names, hnames, harchives⟩ := exists_installs files home
      rw [Option.map_some, Option.getD_some, harchives, List.map_map]
      exact .installed hnames (forall₂_countsAs_iff.mpr rfl)

/-! ### The order of listing -/

theorem Installs.of_sameFiles {files files' : FileTree} (h : files.SameFiles files') {home : Path}
    {names : List String} (hnames : Installs files home names) : Installs files' home names where
  ascending := hnames.ascending
  mem_iff name := by rw [hnames.mem_iff, h.mem_children_iff, h.isFile_eq]

/-- The class path does not depend on the order in which folders list their names. -/
theorem build_eq_of_sameFiles (s : Settings) {files files' : FileTree}
    (h : files.SameFiles files') : s.build files = s.build files' := by
  have hentries : entryScope? files = entryScope? files' := by
    funext entry
    rw [entryScope?, h.isDirectory_eq, h.isFile_eq, entryScope?]
  have harchives : ∀ home, installedArchives files home = installedArchives files' home := by
    intro home
    obtain ⟨names, hnames, hpaths⟩ := exists_installs files home
    obtain ⟨names', hnames', hpaths'⟩ := exists_installs files' home
    rw [hpaths, hpaths', (hnames.of_sameFiles h).unique hnames']
  have hinstalled : installed files = installed files' := by
    funext home
    rw [installed, harchives, installed]
  rw [build, hentries, hinstalled, build]

/-- **The class path is the documented one.** Whatever the environment and the explicit values are
and whatever the files hold, there are chosen entries and an installation, and the class path has
parts. Whichever these are, and whatever the files hold by the time the class path is asked, the
resources of a name are those that the parts give, part after part, unless a part fails; then the
error of the first part that does is all there is. Nothing in this depends on the order in which
folders list their names, neither the class path nor the services that it lists. -/
theorem class_path_as_documented (listed named : Option String) (entries : List Path)
    (home : Option Path) (built : FileTree) :
    let settings := (ofEnvironment listed named).merge entries home
    let scope := settings.build built
    (∃ chosen home' parts, ChoosesEntries listed entries chosen ∧ ChoosesHome named home home' ∧
      HasParts built home' chosen parts) ∧
    (∀ chosen home' parts, ChoosesEntries listed entries chosen → ChoosesHome named home home' →
      HasParts built home' chosen parts → ∀ name w,
        let answer := fun s : Scope => ((s.resources name).run.run w).1
        answer scope = (parts.mapM answer).map List.flatten) ∧
    ∀ built', built.SameFiles built' → settings.build built' = scope ∧
      ∀ files files', files.SameFiles files' →
        scope.serviceNames files = scope.serviceNames files' := by
  intro settings scope
  have hexists : ∃ chosen home' parts, ChoosesEntries listed entries chosen ∧
      ChoosesHome named home home' ∧ HasParts built home' chosen parts :=
    ⟨_, _, _, (choosesEntries_iff named home).mpr rfl, (choosesHome_iff listed entries).mpr rfl,
      hasParts_iff.mpr rfl⟩
  refine ⟨hexists, ?_, fun built' h => ⟨(build_eq_of_sameFiles settings h).symm, ?_⟩⟩
  · intro chosen home' parts hchosen hhome hparts name w answer
    have hleaves : parts = scope.leaves := by
      rw [hasParts_iff.mp hparts, (choosesEntries_iff named home).mp hchosen,
        (choosesHome_iff listed entries).mp hhome]
    have hfiles : scope.OnFiles := settings.onFiles_build built
    have hanswer : ∀ leaf ∈ scope.leaves, ∀ w', w'.files = w.files →
        ((leaf.resources name).run.run w').1 = answer leaf := fun leaf hleaf w' hw' => by
      rw [hfiles.run_resources_leaf name hleaf, hw', ← hfiles.run_resources_leaf name hleaf]
    rw [hleaves]
    exact (Scope.alwaysAnswers_resources_of_leaves hanswer w rfl).1
  · exact fun files files' hfiles => Scope.serviceNames_eq_of_sameFiles hfiles scope

/-- An installation `h` in the working folder whose `lib` folder has one archive under each of some
names, listed in that order, and a folder `app` below the root that configures the same capability.
-/
def installation (listed : List String) : FileTree :=
  { Scope.appFiles with
    entries := Scope.appFiles.entries ++ (["work", "h"], .directory) ::
      (["work", "h", "lib"], .directory) ::
        listed.map fun name => (["work", "h", "lib", name], .file Scope.oneServiceArchive) }

/-- The archives of `h` come by name, before the entries; `notes.txt` and an entry that is not
there do not count. The installation is given by a path from the root, and the folder `app` by one
that leads out of the working folder. -/
theorem class_path_installation :
    let settings := (ofEnvironment (some ":../app:/lost.jar") (some "/work/h")).merge [] none
    let files := installation ["b.zip", "notes.txt", "a.jar"]
    let files' := installation ["notes.txt", "a.jar", "b.zip"]
    ((((settings.build files).resources "META-INF/services/x").run.run (.fresh files ∅)).1.map
        (·.map Resource.id) =
      .ok [⟨"jar:file:/work/h/lib/a.jar!/META-INF/services/x"⟩,
        ⟨"jar:file:/work/h/lib/b.zip!/META-INF/services/x"⟩, ⟨"file:../app/META-INF/services/x"⟩]) ∧
    (settings.build files').serviceNames files' = .ok ["x"] := by
  intro settings files files'
  obtain ⟨-, hanswers, horder⟩ :=
    class_path_as_documented (some ":../app:/lost.jar") (some "/work/h") [] none files
  have hchosen : ChoosesEntries (some ":../app:/lost.jar") [] [⟨"../app"⟩, ⟨"/lost.jar"⟩] :=
    .listed (show ["", "../app", "/lost.jar"] ≠ [] by decide) (by decide)
  have hhome : ChoosesHome (some "/work/h") none (some ⟨"/work/h"⟩) := .named (by decide)
  have hparts : HasParts files (some ⟨"/work/h"⟩) [⟨"../app"⟩, ⟨"/lost.jar"⟩]
      [.archive ⟨"/work/h/lib/a.jar"⟩, .archive ⟨"/work/h/lib/b.zip"⟩, .directory ⟨"../app"⟩] := by
    have harchives : installedArchives files ⟨"/work/h"⟩ =
        [⟨"/work/h/lib/a.jar"⟩, ⟨"/work/h/lib/b.zip"⟩] := by
      decide +kernel
    have hown : entryScope? files ⟨"../app"⟩ = some (.directory ⟨"../app"⟩) :=
      (countsAs_iff.mp (.folder (by decide +kernel))).symm
    have hlost : entryScope? files ⟨"/lost.jar"⟩ = none :=
      (countsAs_iff.mp (.skipped (by decide +kernel) fun h =>
        absurd h.1 (by decide +kernel))).symm
    rw [hasParts_iff, leaves_build, Option.map_some, harchives]
    simp [hown, hlost]
  have hsame : files.SameFiles files' :=
    FileTree.sameFiles_of_perm (by decide +kernel) (by decide +kernel) rfl rfl
  obtain ⟨hbuild, hservices⟩ := horder files' hsame
  refine ⟨?_, ?_⟩
  · have hanswer := hanswers _ _ _ hchosen hhome hparts "META-INF/services/x" (.fresh files ∅)
    dsimp only at hanswer
    rw [hanswer]
    decide +kernel
  · rw [hbuild, ← hservices files files' hsame]
    decide +kernel

end Settings

end ProviderDiscovery
