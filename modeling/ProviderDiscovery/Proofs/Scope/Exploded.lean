import Mathlib.Data.List.Nodup
import ProviderDiscovery.Proofs.Candidates.Enumeration
import ProviderDiscovery.Proofs.Configuration.Names
import ProviderDiscovery.Proofs.Files.Contents
import ProviderDiscovery.Proofs.Scope.Services

/-!
# Folders and archives with the same contents

A folder and an archive that hold the same contents list the same services, and the candidates that
are found in them are the same. Only the identifiers of the resources tell them apart: relocating
what is found in the folder to the entry of the archive gives what is found in the archive.
-/

namespace ProviderDiscovery

/-! ### Relocation -/

/-- The fault as it reads when the resource has another identifier. -/
def DiscoveryFault.relocate (resource : ResourceId) : DiscoveryFault → DiscoveryFault
  | .malformed _ line fault => .malformed resource line fault
  | .unreadable _ cause => .unreadable resource cause
  | fault => fault

/-- The error as it reads when the resource has another identifier. -/
def DiscoveryError.relocate (resource : ResourceId) (e : DiscoveryError) : DiscoveryError :=
  ⟨e.capability, e.fault.relocate resource⟩

/-- The candidate of the same name from another resource. -/
def Candidate.relocate (resource : ResourceId) (candidate : Candidate) : Candidate :=
  ⟨candidate.name, resource⟩

/-- The answer to a request for a candidate when the resource has another identifier. -/
def relocateAnswer (resource : ResourceId) :
    Except DiscoveryError (Option Candidate) → Except DiscoveryError (Option Candidate)
  | .error e => .error (e.relocate resource)
  | .ok found => .ok (found.map (Candidate.relocate resource))

namespace Mention

/-- The mention **relocated** to another resource. -/
def relocate (resource : ResourceId) : Mention → Mention
  | .error e => .error (e.relocate resource)
  | .ok candidate => .ok (candidate.relocate resource)

theorem answer_map_relocate (resource : ResourceId) (m : Option Mention) :
    answer (m.map (relocate resource)) = relocateAnswer resource (answer m) := by
  rcases m with _ | _ | candidate <;> rfl

/-- Which mentions are the first ones depends on their names only. -/
theorem firstMentions_map_relocate (resource : ResourceId) (skip : String → Bool)
    (l : List Mention) :
    firstMentions skip (l.map (relocate resource)) =
      (firstMentions skip l).map (relocate resource) := by
  induction l generalizing skip with
  | nil => rfl
  | cons m rest ih =>
    cases m with
    | error e => exact congrArg (.error (e.relocate resource) :: ·) (ih skip)
    | ok candidate =>
      rw [List.map_cons, relocate, firstMentions, firstMentions]
      change (if skip candidate.name then _ else _) = _
      split
      · exact ih skip
      · exact congrArg (.ok (candidate.relocate resource) :: ·) (ih _)

end Mention

/-- Resources that read alike mention the same, each under its own identifier. -/
theorem Resource.mentions_eq_map_relocate {files : FileTree} {r r' : Resource}
    {bytes : List UInt8} (h : r.read files = .ok bytes) (h' : r'.read files = .ok bytes)
    (capability : CapabilityId) :
    r'.mentions capability files = (r.mentions capability files).map (Mention.relocate r'.id) := by
  simp only [mentions, namesIn, Opened.read_eq_ok_iff.mp h, Opened.read_eq_ok_iff.mp h',
    namesRead_ok, namesInLines]
  cases Configuration.readLines 1 (Text.lines bytes) with
  | error fault => cases fault <;> rfl
  | ok names =>
    simp only [Except.mapError, List.map_map]
    rfl

/-! ### Services -/

/-- Where the configuration file of a service lies. -/
def serviceLocation (name : String) : List String := ["META-INF", "services", name]

theorem servicesPrefix_append (name : String) :
    servicesPrefix ++ name = "META-INF/services" ++ "/" ++ name :=
  congrArg (· ++ name) (by decide +kernel : servicesPrefix = "META-INF/services" ++ "/")

theorem textOf_serviceLocation (name : String) :
    Path.textOf (serviceLocation name) = servicesPrefix ++ name := by
  have hfolder : "META-INF/services" = "META-INF" ++ "/" ++ "services" := by decide +kernel
  rw [servicesPrefix_append, hfolder, Path.textOf, serviceLocation,
    String.intercalate_cons_cons, String.intercalate_cons_cons, String.intercalate_singleton]
  simp only [String.append_assoc]

theorem names_servicesPrefix : (Path.mk servicesPrefix).names = ["META-INF", "services"] := by
  decide +kernel

theorem names_servicesPrefix_append {name : String} (hne : name ≠ "")
    (hslash : '/' ∉ name.toList) :
    (Path.mk (servicesPrefix ++ name)).names = serviceLocation name := by
  have hfolder : (Path.mk "META-INF/services").names = ["META-INF", "services"] := by
    decide +kernel
  rw [servicesPrefix_append, Path.names_append_slash, Path.names_eq_singleton hne hslash, hfolder]
  rfl

theorem isPlain_of_mem_servicesFolder {name : String} (hname : name ∈ ["META-INF", "services"]) :
    Path.IsPlain name := by
  have hall : ∀ n ∈ ["META-INF", "services"], n ≠ "" ∧ n ≠ "." ∧ n ≠ ".." ∧ '/' ∉ n.toList := by
    decide +kernel
  obtain ⟨hempty, hdot, hdots, hslash⟩ := hall name hname
  exact ⟨hempty, hdot, hdots, hslash⟩

theorem isPlain_of_mem_serviceLocation {name : String} (hname : Path.IsPlain name) :
    ∀ n ∈ serviceLocation name, Path.IsPlain n := by
  intro n hn
  rcases List.mem_append.mp (show n ∈ ["META-INF", "services"] ++ [name] from hn) with hn | hn
  · exact isPlain_of_mem_servicesFolder hn
  · rwa [List.mem_singleton.mp hn]

/-- The services of contents are the names of the files in the services folder. -/
def Contents.IsService (c : Contents) (name : String) : Prop := serviceLocation name ∈ c.locations

theorem Contents.IsService.isPlain {c : Contents} {name : String} (h : c.IsService name) :
    Path.IsPlain name :=
  c.plain _ h name (by simp [serviceLocation])

namespace Scope

/-- A folder lists the services of its contents in order. -/
theorem exists_directoryServices_of_holds {t : FileTree} {root : Path} {location : List String}
    {c : Contents} (h : t.Holds root location c) :
    ∃ names, directoryServices t root = .ok names ∧ names.Pairwise (· < ·) ∧
      ∀ name, name ∈ names ↔ c.IsService name := by
  obtain ⟨names, hnames, hsorted, hfile, hchildren⟩ := exists_directoryServices t root
  refine ⟨names, hnames, hsorted, fun name => ?_⟩
  have hiff : ∀ hname : Path.IsPlain name, name ∈ names ↔ c.IsService name := fun hname => by
    rw [hfile name hname, ← textOf_serviceLocation,
      h.isFile_iff (isPlain_of_mem_serviceLocation hname)]
    rfl
  refine ⟨fun hmem => ?_, fun hservice => (hiff hservice.isPlain).mpr hservice⟩
  obtain ⟨children, hlisted, hchild⟩ := hchildren name hmem
  exact (hiff (h.isPlain_of_mem_children servicesPrefix_isAbsolute names_servicesPrefix
    (fun n hn => isPlain_of_mem_servicesFolder hn) hlisted hchild)).mp hmem

/-- The name of a folder's entry stands for no service. -/
theorem archiveService?_of_endsInSlash {entry : String} (h : (Path.mk entry).endsInSlash) :
    archiveService? entry = none := by
  refine Option.eq_none_iff_forall_ne_some.mpr fun name hname => ?_
  obtain ⟨rfl, hne, hslash⟩ := archiveService?_eq_some_iff.mp hname
  have hchars : name.toList ≠ [] := fun hnil => hne (String.toList_eq_nil_iff.mp hnil)
  have hlast : name.toList.getLast? = some '/' := by
    rw [Path.endsInSlash, String.toList_append, List.getLast?_append,
      List.getLast?_eq_some_getLast hchars] at h
    rw [List.getLast?_eq_some_getLast hchars]
    exact beq_iff_eq.mp h
  exact hslash (List.mem_of_getLast? hlast)

/-- The services of an archive are those of its contents, each once. -/
theorem archiveServices_of_holds {a : Archive} {c : Contents} (h : a.Holds c) :
    (a.names.filterMap archiveService?).Nodup ∧
      ∀ name, name ∈ a.names.filterMap archiveService? ↔ c.IsService name := by
  obtain ⟨folders, hperm, hfolders⟩ := h.names
  have hnone : folders.filterMap archiveService? = [] :=
    List.filterMap_eq_nil_iff.mpr fun folder hfolder =>
      archiveService?_of_endsInSlash (hfolders folder hfolder)
  have hservices : (a.names.filterMap archiveService?).Perm
      ((c.locations.map Path.textOf).filterMap archiveService?) := by
    have hall := hperm.filterMap archiveService?
    rwa [List.filterMap_append, hnone, List.append_nil] at hall
  have htexts : (c.locations.map Path.textOf).Nodup :=
    List.Nodup.map_on (fun location hlocation other hother htext =>
      (Path.textOf_inj (c.plain location hlocation) (c.plain other hother)).mp htext) c.nodup
  refine ⟨hservices.nodup_iff.mpr
    (List.Nodup.filterMap (fun entry other name hentry hother => ?_) htexts), fun name => ?_⟩
  · rw [(archiveService?_eq_some_iff.mp hentry).1, (archiveService?_eq_some_iff.mp hother).1]
  rw [hservices.mem_iff, List.mem_filterMap]
  constructor
  · rintro ⟨entry, hentry, hname⟩
    obtain ⟨location, hlocation, rfl⟩ := List.mem_map.mp hentry
    obtain ⟨htext, hne, hslash⟩ := archiveService?_eq_some_iff.mp hname
    have hnames := Path.names_textOf (c.plain location hlocation)
    rw [htext, names_servicesPrefix_append hne hslash] at hnames
    rwa [Contents.IsService, hnames]
  · intro hservice
    have hplain := hservice.isPlain
    exact ⟨_, List.mem_map_of_mem hservice, archiveService?_eq_some_iff.mpr
      ⟨textOf_serviceLocation name, hplain.ne_empty, hplain.slash⟩⟩

/-- A folder and an archive with the same contents **list the same services**. -/
theorem exists_services_of_holds {t : FileTree} {root jar : Path} {location : List String}
    {c : Contents} {a : Archive} (hfolder : t.Holds root location c)
    (hjar : openArchive t jar = .ok a) (harchive : a.Holds c) :
    ∃ names, (directory root).serviceNames t = .ok names ∧
      (archive jar).serviceNames t = .ok names := by
  obtain ⟨names, hnames, hsorted, hmem⟩ := exists_directoryServices_of_holds hfolder
  obtain ⟨hnodup, hservices⟩ := archiveServices_of_holds harchive
  have hunique : names.Nodup := hsorted.imp fun hlt => String.ne_of_lt hlt
  have hperm : (orderedNames (a.names.filterMap archiveService?)).Perm names :=
    (orderedNames_perm _).trans <| (List.perm_ext_iff_of_nodup hnodup hunique).mpr fun name =>
      (hservices name).trans (hmem name).symm
  have heq : orderedNames (a.names.filterMap archiveService?) = names :=
    hperm.eq_of_pairwise (fun _ _ _ _ => String.le_antisymm) (pairwise_orderedNames _)
      (hsorted.imp fun hlt => String.not_lt.mp (String.lt_asymm hlt))
  refine ⟨names, ?_, ?_⟩
  · rw [serviceNames]
    exact hnames
  · rw [serviceNames, archiveServices, hjar, ← heq]
    rfl

/-! ### Candidates -/

/-- What is found in a scope are the first mentions in its resources. -/
theorem takeNext_of_resources {t : FileTree} {s : Scope} {capability : CapabilityId}
    {rs : List Resource} (hname : isQualifiedName capability.text)
    (h : AlwaysAnswers t (s.resources capability.resourceName).run (.ok rs)) {w : World}
    (hw : w.files = t) (known : String → Bool) (n : Nat) :
    ((Candidates.takeNext known n (.start capability s)).run w).1.1 = (List.range n).map fun k =>
      Mention.answer (firstMentions known (mentions capability t rs))[k]? := by
  have hlocate : (Candidates.start capability s).unopened w = .ok rs :=
    (alwaysAnswers_locate hname h w hw).1
  rw [Candidates.takeNext_answers known n rfl hlocate, Candidates.ahead_start, hw]

/-- An entry of an open archive is read from it. -/
theorem read_ofArchiveEntry_of_openArchive {t : FileTree} {jar : Path} {a : Archive}
    (hjar : openArchive t jar = .ok a) {entry : String} {bytes : List UInt8}
    (h : a.read entry = .ok bytes) : (Resource.ofArchiveEntry jar entry).read t = .ok bytes := by
  have hopened : (t.entry jar).bind t.archives = .ok a := by
    rw [openArchive] at hjar
    split at hjar
    · cases hjar
    · rename_i e hentry
      split at hjar
      · cases hjar
      · rename_i opened hopened
        rw [hentry, ← Except.ok.inj hjar]
        exact hopened
  rw [Resource.read_ofArchiveEntry, hopened]
  exact h

/-- The resources of a folder and of an archive with the same contents mention the same. -/
theorem exists_resources_of_holds {t : FileTree} {root jar : Path} {location : List String}
    {c : Contents} {a : Archive} (hfolder : t.Holds root location c)
    (hjar : openArchive t jar = .ok a) (harchive : a.Holds c) {capability : CapabilityId}
    (hname : isQualifiedName capability.text) :
    ∃ rs rs', AlwaysAnswers t ((directory root).resources capability.resourceName).run (.ok rs) ∧
      AlwaysAnswers t ((archive jar).resources capability.resourceName).run (.ok rs') ∧
      mentions capability t rs' = (mentions capability t rs).map
        (Mention.relocate (Resource.archiveEntryId jar capability.resourceName)) := by
  have hplain := isPlain_of_mem_serviceLocation (isPlain_of_isQualifiedName hname)
  have htext : Path.textOf (serviceLocation capability.text) = capability.resourceName :=
    textOf_serviceLocation capability.text
  have hfile := hfolder.isFile_iff hplain
  have hentry : Path.textOf (serviceLocation capability.text) ∈ a.names ↔
      serviceLocation capability.text ∈ c.locations :=
    harchive.mem_names_iff (List.cons_ne_nil _ _) hplain
  rw [htext] at hfile hentry
  refine ⟨directoryResources t root capability.resourceName,
    if a.names.contains capability.resourceName then
      [.ofArchiveEntry jar capability.resourceName] else [], ?_, ?_, ?_⟩
  · rw [resources]
    exact .attempt_get_bind fun w hw => hw ▸ .attempt_pure _
  · rw [resources]
    refine .attempt_get_bind fun w hw => ?_
    rw [hw, archiveResources, hjar]
    exact .attempt_of _
  · by_cases hservice : serviceLocation capability.text ∈ c.locations
    · obtain ⟨bytes, hbytes⟩ := Contents.mem_locations_iff.mp hservice
      have hread := hfolder.reads _ bytes hbytes
      have hread' := read_ofArchiveEntry_of_openArchive hjar (harchive.reads _ bytes hbytes)
      rw [htext] at hread hread'
      rw [directoryResources, if_pos (hfile.mpr hservice),
        if_pos (List.contains_iff_mem.mpr (hentry.mpr hservice))]
      simp only [mentions, List.flatMap_singleton]
      exact Resource.mentions_eq_map_relocate
        ((Resource.read_ofFile ..).trans hread) hread' capability
    · rw [directoryResources, if_neg fun h => hservice (hfile.mp h),
        if_neg fun h => hservice (hentry.mp (List.contains_iff_mem.mp h))]
      rfl

/-- The candidates for an identifier that cannot be located are so many failures. -/
theorem takeNext_of_not_isQualifiedName (s : Scope) {capability : CapabilityId}
    (hname : isQualifiedName capability.text = false) (known : String → Bool) (n : Nat)
    (w : World) :
    ((Candidates.takeNext known n (.start capability s)).run w).1.1 =
      List.replicate n (.error ⟨capability, .scope (.invalidIdentifier capability.text)⟩) := by
  induction n generalizing w with
  | zero => rfl
  | succ n ih =>
    have hlocate : (Candidates.start capability s).unopened w =
        .error (.invalidIdentifier capability.text) := by
      change ((s.locate capability).run.run w).1 = _
      rw [locate_of_not_isQualifiedName hname]
      rfl
    obtain ⟨es, hrun, -⟩ := Candidates.run_next_of_error known rfl hlocate
    rw [Candidates.takeNext, Action.run_bind, hrun]
    exact congrArg (_ :: ·) (ih (w.after es))

/-- **A folder and an archive with the same contents are interchangeable.** They list the same
services. For each capability, requests for candidates are answered by the same names and the same
failures, whichever of the two is looked in; only the identifier of the resource is that of the
archive's entry in place of that of the file. -/
theorem folder_and_archive_alike {t : FileTree} {root jar : Path} {location : List String}
    {c : Contents} {a : Archive} (hfolder : t.Holds root location c)
    (hjar : openArchive t jar = .ok a) (harchive : a.Holds c) :
    (∃ names, (directory root).serviceNames t = .ok names ∧
        (archive jar).serviceNames t = .ok names) ∧
      ∀ (w : World), w.files = t → ∀ (capability : CapabilityId) (known : String → Bool) (n : Nat),
        ((Candidates.takeNext known n (.start capability (.archive jar))).run w).1.1 =
          ((Candidates.takeNext known n (.start capability (.directory root))).run w).1.1.map
            (relocateAnswer (Resource.archiveEntryId jar capability.resourceName)) := by
  refine ⟨exists_services_of_holds hfolder hjar harchive, fun w hw capability known n => ?_⟩
  cases hname : isQualifiedName capability.text with
  | false =>
    rw [takeNext_of_not_isQualifiedName _ hname, takeNext_of_not_isQualifiedName _ hname,
      List.map_replicate]
    rfl
  | true =>
    obtain ⟨rs, rs', hrs, hrs', hmentions⟩ :=
      exists_resources_of_holds hfolder hjar harchive hname
    rw [takeNext_of_resources hname hrs hw, takeNext_of_resources hname hrs' hw, hmentions,
      Mention.firstMentions_map_relocate, List.map_map]
    refine List.map_congr_left fun k _ => ?_
    rw [Function.comp_apply, List.getElem?_map, Mention.answer_map_relocate]

/-- One file, the configuration file for `x`, which lists `A`. -/
def oneService : Contents where
  entries := [(["META-INF", "services", "x"], [0x41])]
  nodup := List.nodup_singleton _
  ne_nil := by
    intro location hlocation
    rw [List.mem_singleton.mp hlocation]
    exact List.cons_ne_nil _ _
  plain := by
    intro location hlocation
    rw [List.mem_singleton.mp hlocation]
    exact isPlain_of_mem_serviceLocation ⟨by decide, by decide, by decide, by decide +kernel⟩
  apart := by
    intro location hlocation below hbelow hmem
    rw [List.mem_singleton.mp hlocation] at hmem
    exact hbelow (List.append_right_eq_self.mp (List.mem_singleton.mp hmem))

/-- An archive of that file and of its folder, both stored as they are. -/
def oneServiceArchive : List UInt8 :=
  let folder := Text.Utf8.encode "META-INF/services/"
  let file := Text.Utf8.encode "META-INF/services/x"
  -- The folder and the file, each behind its header.
  [0x50, 0x4b, 0x03, 0x04, 0x14, 0x00, 0x00, 0x00, 0x00, 0x00, 0x00, 0x00, 0x21, 0x00, 0x00,
    0x00, 0x00, 0x00, 0x00, 0x00, 0x00, 0x00, 0x00, 0x00, 0x00, 0x00, 0x12, 0x00, 0x00, 0x00] ++
  folder ++
  [0x50, 0x4b, 0x03, 0x04, 0x14, 0x00, 0x00, 0x00, 0x00, 0x00, 0x00, 0x00, 0x21, 0x00, 0x8b,
    0x9e, 0xd9, 0xd3, 0x01, 0x00, 0x00, 0x00, 0x01, 0x00, 0x00, 0x00, 0x13, 0x00, 0x00, 0x00] ++
  file ++ [0x41] ++
  -- The records of the directory.
  [0x50, 0x4b, 0x01, 0x02, 0x14, 0x03, 0x14, 0x00, 0x00, 0x00, 0x00, 0x00, 0x00, 0x00, 0x21,
    0x00, 0x00, 0x00, 0x00, 0x00, 0x00, 0x00, 0x00, 0x00, 0x00, 0x00, 0x00, 0x00, 0x12, 0x00,
    0x00, 0x00, 0x00, 0x00, 0x00, 0x00, 0x00, 0x00, 0x00, 0x00, 0x80, 0x01, 0x00, 0x00, 0x00,
    0x00] ++ folder ++
  [0x50, 0x4b, 0x01, 0x02, 0x14, 0x03, 0x14, 0x00, 0x00, 0x00, 0x00, 0x00, 0x00, 0x00, 0x21,
    0x00, 0x8b, 0x9e, 0xd9, 0xd3, 0x01, 0x00, 0x00, 0x00, 0x01, 0x00, 0x00, 0x00, 0x13, 0x00,
    0x00, 0x00, 0x00, 0x00, 0x00, 0x00, 0x00, 0x00, 0x00, 0x00, 0x80, 0x01, 0x30, 0x00, 0x00,
    0x00] ++ file ++
  -- The closing record.
  [0x50, 0x4b, 0x05, 0x06, 0x00, 0x00, 0x00, 0x00, 0x02, 0x00, 0x02, 0x00, 0x81, 0x00, 0x00,
    0x00, 0x62, 0x00, 0x00, 0x00, 0x00, 0x00]

/-- A folder `app` below the root with that file, and beside it the archive of it. -/
def appFiles : FileTree :=
  { (∅ : FileTree) with entries := [(["work"], .directory), (["app"], .directory),
      (["app", "META-INF"], .directory), (["app", "META-INF", "services"], .directory),
      (["app", "META-INF", "services", "x"], .file [0x41]),
      (["app.jar"], .file oneServiceArchive)] }

theorem holds_appFiles : appFiles.Holds ⟨"/app"⟩ ["app"] oneService where
  leads := by decide +kernel
  plain := by
    intro below hbelow name hname
    have hfile : ∀ n ∈ serviceLocation "x", Path.IsPlain n :=
      isPlain_of_mem_serviceLocation ⟨by decide, by decide, by decide, by decide +kernel⟩
    have hstart : below <+: serviceLocation "x" := by
      simp only [appFiles, Keyed.keys, List.map_cons, List.map_nil, List.mem_cons,
        List.singleton_append, List.cons.injEq, true_and, List.not_mem_nil, or_false] at hbelow
      rcases hbelow with ⟨hwork, -⟩ | rfl | rfl | rfl | rfl | ⟨happ, -⟩
      · exact absurd hwork (by decide)
      · exact List.nil_prefix
      · decide
      · decide
      · exact List.prefix_rfl
      · exact absurd happ (by decide)
    exact hfile name (hstart.subset hname)
  only := by
    intro below bytes hlookup
    have hbelow : below = ["META-INF", "services", "x"] ∧ bytes = [0x41] := by
      simpa [appFiles] using FileTree.mem_entries_of_lookup (List.cons_ne_nil _ _) hlookup
    rw [hbelow.1]
    exact List.mem_singleton_self _
  reads := by
    intro below bytes hmem
    obtain ⟨rfl, rfl⟩ := Prod.mk.inj (List.mem_singleton.mp hmem)
    decide +kernel

theorem exists_openArchive_appFiles :
    ∃ a, openArchive appFiles ⟨"/app.jar"⟩ = .ok a ∧ a.Holds oneService := by
  have hopen : (openArchive appFiles ⟨"/app.jar"⟩).map (fun a =>
      (a.names, (a.read "META-INF/services/x").toOption)) =
        .ok (["META-INF/services/", "META-INF/services/x"], some [0x41]) := by
    decide +kernel
  cases hjar : openArchive appFiles ⟨"/app.jar"⟩ with
  | error cause =>
    rw [hjar] at hopen
    cases hopen
  | ok a =>
    rw [hjar] at hopen
    obtain ⟨hnames, hread⟩ := Prod.mk.inj (Except.ok.inj hopen)
    refine ⟨a, rfl, ⟨["META-INF/services/"], ?_, ?_⟩, ?_⟩
    · rw [hnames]
      exact .swap _ _ []
    · decide +kernel
    · intro location bytes hmem
      obtain ⟨rfl, rfl⟩ := Prod.mk.inj (List.mem_singleton.mp hmem)
      show a.read "META-INF/services/x" = .ok [0x41]
      cases hbytes : a.read "META-INF/services/x" with
      | error fault =>
        rw [hbytes] at hread
        cases hread
      | ok bytes =>
        rw [hbytes] at hread
        exact congrArg Except.ok (Option.some.inj hread)

/-- The name `A` is found in the folder and in the archive. -/
theorem folder_and_archive_appFiles :
    ∃ a, appFiles.Holds ⟨"/app"⟩ ["app"] oneService ∧ openArchive appFiles ⟨"/app.jar"⟩ = .ok a ∧
      a.Holds oneService ∧
      (archive ⟨"/app.jar"⟩).serviceNames appFiles = .ok ["x"] ∧
      ((Candidates.takeNext (fun _ => false) 2 (.start ⟨"x"⟩ (.archive ⟨"/app.jar"⟩))).run
        (.fresh appFiles ∅)).1.1 =
          [.ok (some ⟨"A", ⟨"jar:file:/app.jar!/META-INF/services/x"⟩⟩), .ok none] := by
  obtain ⟨a, hjar, harchive⟩ := exists_openArchive_appFiles
  obtain ⟨⟨names, hfolder, hnames⟩, halike⟩ :=
    folder_and_archive_alike holds_appFiles hjar harchive
  refine ⟨a, holds_appFiles, hjar, harchive, ?_, ?_⟩
  · rw [hnames, ← hfolder]
    decide +kernel
  · rw [halike (.fresh appFiles ∅) rfl ⟨"x"⟩ (fun _ => false) 2]
    decide +kernel

end Scope

end ProviderDiscovery
