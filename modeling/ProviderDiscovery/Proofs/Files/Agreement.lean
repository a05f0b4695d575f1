import ProviderDiscovery.Proofs.Files.Extension
import ProviderDiscovery.Proofs.Files.Tree

/-!
# Trees that agree

Where a path leads depends on what the locations hold, and not on the order in which a folder lists
its names: trees that hold the same files (`SameFiles`) cannot be told apart but by that order.
Trees can also agree apart from some files (`AgreeApart`). No path leads through a file, so a path
that leads to something else leads to the same location in both (`AgreeApart.find_eq_ok`).
-/

namespace ProviderDiscovery.FileTree

variable {t t' : FileTree}

/-- A location below another holds something if and only if the folder above lists its name. -/
theorem isSome_lookup_iff_mem_namesIn {location : List String} {name : String} :
    (t.lookup (location ++ [name])).isSome ↔ name ∈ t.namesIn location := by
  have hlookup : t.lookup (location ++ [name]) = t.entries.lookup (location ++ [name]) := by
    cases location <;> rfl
  rw [hlookup, List.lookup_isSome_iff, mem_namesIn_iff, Keyed.keys, List.mem_map]
  simp only [beq_iff_eq]
  exact exists_congr fun e => and_congr_right fun _ => eq_comm

/-- A name is listed at the end of a path if and only if the path leads to a folder that has
something under the name. -/
theorem exists_mem_children_iff {p : Path} {name : String} :
    (∃ names, t.children p = .ok names ∧ name ∈ names) ↔
      ∃ location, t.find p = .ok location ∧ t.entryAt location = .directory ∧
        (t.lookup (location ++ [name])).isSome := by
  rw [children]
  cases hfind : t.find p with
  | error fault => simp
  | ok location =>
    cases hentry : t.entryAt location <;> simp [hentry, isSome_lookup_iff_mem_namesIn]

/-! ### The same files -/

/-- Two trees hold the **same files** when each location holds the same in both, paths go on from
the same working folder, and archives are read alike. They may list the names in a folder in
different orders. -/
structure SameFiles (t t' : FileTree) : Prop where
  lookup_eq : ∀ location, t.lookup location = t'.lookup location
  working_eq : t.working = t'.working
  archives_eq : t.archives = t'.archives

/-- The order in which a tree holds its files does not count. -/
theorem sameFiles_of_perm {t t' : FileTree} (h : t.entries.Perm t'.entries)
    (hnodup : (Keyed.keys t.entries).Nodup) (hworking : t.working = t'.working)
    (harchives : t.archives = t'.archives) : t.SameFiles t' := by
  have hnodup' : (Keyed.keys t'.entries).Nodup := (h.map Prod.fst).nodup_iff.mp hnodup
  have hlookup : ∀ location, t.entries.lookup location = t'.entries.lookup location :=
    fun location => Option.ext fun e => by
      rw [Keyed.lookup_eq_some_iff_mem hnodup, Keyed.lookup_eq_some_iff_mem hnodup', h.mem_iff]
  refine ⟨fun location => ?_, hworking, harchives⟩
  cases location with
  | nil => rfl
  | cons name rest => exact hlookup (name :: rest)

namespace SameFiles

theorem entryAt_eq (h : SameFiles t t') (location : List String) :
    t.entryAt location = t'.entryAt location := by
  rw [entryAt, h.lookup_eq, entryAt]

theorem enter_eq (h : SameFiles t t') (location : List String) (name : String) :
    t.enter location name = t'.enter location name := by
  simp only [enter, h.lookup_eq]

theorem follow_eq (h : SameFiles t t') (location names : List String) :
    t.follow location names = t'.follow location names := by
  induction names generalizing location with
  | nil => rfl
  | cons name rest ih => simp only [follow, h.entryAt_eq, h.enter_eq, ih]

theorem find_eq (h : SameFiles t t') (p : Path) : t.find p = t'.find p := by
  simp only [find, route, h.working_eq, h.follow_eq, h.entryAt_eq]

theorem entry_eq (h : SameFiles t t') (p : Path) : t.entry p = t'.entry p := by
  rw [entry, entry, h.find_eq]
  exact congrArg (fun f => (t'.find p).map f) (funext h.entryAt_eq)

theorem isFile_eq (h : SameFiles t t') (p : Path) : t.isFile p = t'.isFile p := by
  rw [isFile, h.entry_eq, isFile]

theorem isDirectory_eq (h : SameFiles t t') (p : Path) : t.isDirectory p = t'.isDirectory p := by
  rw [isDirectory, h.entry_eq, isDirectory]

/-- Folders list the same names, in some order. -/
theorem mem_children_iff (h : SameFiles t t') (p : Path) (name : String) :
    (∃ names, t.children p = .ok names ∧ name ∈ names) ↔
      ∃ names, t'.children p = .ok names ∧ name ∈ names := by
  simp only [exists_mem_children_iff, h.find_eq, h.entryAt_eq, h.lookup_eq]

end SameFiles

/-! ### Locations that paths lead to -/

/-- A location that a path **can reach**: it holds something, and all that is above are folders. -/
def CanReach (t : FileTree) (location : List String) : Prop :=
  (t.lookup location).isSome ∧
    ∀ above, above <+: location → above ≠ location → t.lookup above = some .directory

theorem canReach_nil : t.CanReach [] :=
  ⟨rfl, fun _ h hne => absurd (List.prefix_nil.mp h) hne⟩

namespace CanReach

variable {location : List String}

/-- A folder that can be reached stands at its location. -/
theorem lookup_eq_directory (h : t.CanReach location) (hentry : t.entryAt location = .directory) :
    t.lookup location = some .directory := by
  obtain ⟨e, he⟩ := Option.isSome_iff_exists.mp h.1
  rw [entryAt, he] at hentry
  rw [he]
  exact congrArg some hentry

/-- From a location that can be reached two dots lead to one that can be reached, a folder. -/
theorem dropLast (h : t.CanReach location) :
    t.CanReach location.dropLast ∧ t.lookup location.dropLast = some .directory := by
  by_cases hne : location = []
  · rw [hne]
    exact ⟨canReach_nil, rfl⟩
  have habove : ∀ above, above <+: location.dropLast → t.lookup above = some .directory :=
    fun above hstart => by
      refine h.2 above (hstart.trans (List.dropLast_prefix location)) ?_
      rintro rfl
      have hlength := hstart.length_le
      have hpos := List.length_pos_iff.mpr hne
      rw [List.length_dropLast] at hlength
      omega
  have hfolder := habove _ (List.prefix_refl _)
  exact ⟨⟨by rw [hfolder]; rfl, fun above hstart _ => habove above hstart⟩, hfolder⟩

/-- From a folder that can be reached a name leads to a location that can be reached; if there is a
file, it has the name. -/
theorem enter {next : List String} {name : String} (h : t.CanReach location)
    (hentry : t.entryAt location = .directory) (henter : t.enter location name = .ok next) :
    t.CanReach next ∧
      (t.entryAt next = .directory ∨ name ≠ "." ∧ name ≠ ".." ∧ next = location ++ [name]) := by
  unfold FileTree.enter at henter
  split at henter
  · obtain rfl := Except.ok.inj henter
    exact ⟨h, .inl hentry⟩
  rename_i hdot
  split at henter
  · obtain rfl := Except.ok.inj henter
    obtain ⟨hreach, hfolder⟩ := h.dropLast
    exact ⟨hreach, .inl (by rw [entryAt, hfolder]; rfl)⟩
  rename_i hdots
  split at henter
  · cases henter
  split at henter
  · rename_i hsome
    obtain rfl := Except.ok.inj henter
    refine ⟨⟨hsome, fun above habove hne => ?_⟩, .inr ⟨hdot, hdots, rfl⟩⟩
    rcases List.prefix_concat_iff.mp habove with rfl | habove
    · exact absurd rfl hne
    · by_cases hsame : above = location
      · exact hsame ▸ h.lookup_eq_directory hentry
      · exact h.2 above habove hsame
  · cases henter

theorem follow {last names : List String} (h : t.CanReach location)
    (hfollow : t.follow location names = .ok last) : t.CanReach last := by
  induction names generalizing location with
  | nil => exact Except.ok.inj hfollow ▸ h
  | cons name rest ih =>
    obtain ⟨hentry, next, henter, hrest⟩ := follow_cons_eq_ok_iff.mp hfollow
    exact ih (h.enter hentry henter).1 hrest

/-- A file that names lead to has the last of them. -/
theorem eq_append_of_entryAt_eq_file {folder last : List String} {name : String}
    {bytes : List UInt8} (h : t.CanReach folder) (hfollow : t.follow folder [name] = .ok last)
    (hfile : t.entryAt last = .file bytes) :
    name ≠ "." ∧ name ≠ ".." ∧ last = folder ++ [name] := by
  obtain ⟨hdirectory, next, henter, hnext⟩ := follow_cons_eq_ok_iff.mp hfollow
  obtain rfl := Except.ok.inj hnext
  refine (h.enter hdirectory henter).2.resolve_left fun hfolder => ?_
  rw [hfile] at hfolder
  cases hfolder

end CanReach

/-- **A file has the last name of each path that leads to it.** A path without names leads to the
root. -/
theorem exists_name_of_isFile {p : Path} (h : t.isFile p) :
    ∃ location name bytes, t.find p = .ok (location ++ [name]) ∧
      t.lookup (location ++ [name]) = some (.file bytes) ∧ Path.IsPlain name ∧
      p.names.getLast? = some name := by
  obtain ⟨last, bytes, hfind, hentry⟩ := isFile_iff.mp h
  obtain ⟨-, -, hempty, hfollow, -⟩ := find_eq_ok_iff.mp hfind
  rcases List.eq_nil_or_concat p.names with hnil | ⟨front, name, hsplit⟩
  · rw [route, if_pos (Path.isAbsolute_of_names_eq_nil hempty hnil), hnil] at hfollow
    obtain rfl := Except.ok.inj hfollow
    cases hentry
  rw [List.concat_eq_append] at hsplit
  have hmem : name ∈ p.names := hsplit ▸ List.mem_append_right _ List.mem_cons_self
  have hroute : ∃ start, t.route p = start ++ [name] := by
    rw [route, hsplit]
    split
    · exact ⟨front, rfl⟩
    · exact ⟨t.working ++ front, (List.append_assoc ..).symm⟩
  obtain ⟨start, hroute⟩ := hroute
  rw [hroute, follow_append_eq_ok_iff] at hfollow
  obtain ⟨folder, hfolder, hlast⟩ := hfollow
  obtain ⟨hdot, hdots, rfl⟩ :=
    (canReach_nil.follow hfolder).eq_append_of_entryAt_eq_file hlast hentry
  exact ⟨folder, name, bytes, hfind, lookup_of_entryAt_eq_file hentry,
    Path.isPlain_of_mem_names hmem hdot hdots, by rw [hsplit, List.getLast?_concat]⟩

/-! ### Agreement apart from some files -/

/-- A name that leads to something in one tree leads there in another that has something there. -/
theorem enter_eq_ok_of_isSome {location next : List String} {name : String}
    (henter : t.enter location name = .ok next) (hnext : (t'.lookup next).isSome) :
    t'.enter location name = .ok next := by
  unfold enter at henter ⊢
  split at henter
  · rwa [if_pos ‹_›]
  rw [if_neg ‹_›]
  split at henter
  · rwa [if_pos ‹_›]
  rw [if_neg ‹_›]
  split at henter
  · cases henter
  rw [if_neg ‹_›]
  split at henter
  · obtain rfl := Except.ok.inj henter
    rw [if_pos hnext]
  · cases henter

/-- Two trees **agree apart** from the files at some locations: everywhere else they hold the same,
and at these locations neither has a folder. -/
structure AgreeApart (apart : List String → Prop) (t t' : FileTree) : Prop where
  lookup : ∀ location, t.lookup location = t'.lookup location ∨
    apart location ∧ t.lookup location ≠ some .directory ∧ t'.lookup location ≠ some .directory
  working_eq : t.working = t'.working
  archives_eq : t.archives = t'.archives

namespace AgreeApart

variable {apart : List String → Prop} {location : List String}

protected theorem symm (h : AgreeApart apart t t') : AgreeApart apart t' t where
  lookup location :=
    (h.lookup location).imp Eq.symm fun ⟨hapart, ht, ht'⟩ => ⟨hapart, ht', ht⟩
  working_eq := h.working_eq.symm
  archives_eq := h.archives_eq.symm

theorem lookup_eq (h : AgreeApart apart t t') (hapart : ¬apart location) :
    t.lookup location = t'.lookup location :=
  (h.lookup location).resolve_right fun hdiffer => hapart hdiffer.1

theorem route_eq (h : AgreeApart apart t t') (p : Path) : t.route p = t'.route p := by
  rw [route, h.working_eq, route]

/-- Both have the same folders. -/
theorem lookup_eq_directory (h : AgreeApart apart t t')
    (hdirectory : t.lookup location = some .directory) :
    t'.lookup location = some .directory :=
  ((h.lookup location).resolve_right fun hdiffer => hdiffer.2.1 hdirectory) ▸ hdirectory

theorem entryAt_eq_directory (h : AgreeApart apart t t') (hlocation : t.CanReach location)
    (hentry : t.entryAt location = .directory) : t'.entryAt location = .directory := by
  rw [entryAt, h.lookup_eq_directory (hlocation.lookup_eq_directory hentry)]
  rfl

/-- Names that lead to a location where both trees hold the same lead there in both. On the way
there are only folders. -/
theorem follow_eq_ok (h : AgreeApart apart t t') {last names : List String}
    (hlocation : t.CanReach location) (hfollow : t.follow location names = .ok last)
    (hlast : ¬apart last) : t'.follow location names = .ok last := by
  induction names generalizing location with
  | nil => exact hfollow
  | cons name rest ih =>
    obtain ⟨hentry, next, henter, hrest⟩ := follow_cons_eq_ok_iff.mp hfollow
    have hreach := (hlocation.enter hentry henter).1
    refine follow_cons_eq_ok_iff.mpr ⟨h.entryAt_eq_directory hlocation hentry, next,
      enter_eq_ok_of_isSome henter ?_, ih hreach hrest⟩
    cases rest with
    | nil =>
      obtain rfl := Except.ok.inj hrest
      rw [← h.lookup_eq hlast]
      exact hreach.1
    | cons name' rest' =>
      have hfolder := (follow_cons_eq_ok_iff.mp hrest).1
      rw [h.lookup_eq_directory (hreach.lookup_eq_directory hfolder)]
      rfl

/-- **A path leads to the same location**, where both trees hold the same. -/
theorem find_eq_ok (h : AgreeApart apart t t') {p : Path} (hfind : t.find p = .ok location)
    (hapart : ¬apart location) :
    t'.find p = .ok location ∧ t'.entryAt location = t.entryAt location := by
  obtain ⟨hnull, hlimit, hempty, hfollow, hslash⟩ := find_eq_ok_iff.mp hfind
  have hentry : t'.entryAt location = t.entryAt location := by
    rw [entryAt, entryAt, h.lookup_eq hapart]
  exact ⟨find_eq_ok_iff.mpr ⟨hnull, hlimit, hempty,
    h.route_eq p ▸ h.follow_eq_ok canReach_nil hfollow hapart, hentry ▸ hslash⟩, hentry⟩

end AgreeApart

/-- Trees agree apart from a file that one of them has more. -/
theorem agreeApart_append_file {apart : List String → Prop} {location : List String}
    (hnew : t.lookup location = none) (bytes : List UInt8) (hapart : apart location) :
    AgreeApart apart t { t with entries := t.entries ++ [(location, .file bytes)] } := by
  refine ⟨fun place => ?_, rfl, rfl⟩
  by_cases hplace : place = location
  · rw [hplace]
    refine .inr ⟨hapart, by simp [hnew], ?_⟩
    cases location with
    | nil => cases hnew
    | cons name rest =>
      change (t.entries ++ [_]).lookup (name :: rest) ≠ _
      change t.entries.lookup (name :: rest) = none at hnew
      simp [List.lookup_append, hnew]
  · refine .inl ?_
    cases place with
    | nil => rfl
    | cons name rest =>
      change t.entries.lookup (name :: rest) = (t.entries ++ [_]).lookup (name :: rest)
      simp [List.lookup_append, List.lookup_cons, beq_eq_false_iff_ne.mpr hplace]

end ProviderDiscovery.FileTree
