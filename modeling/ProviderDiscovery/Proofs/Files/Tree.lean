import ProviderDiscovery.Files.Tree
import ProviderDiscovery.Proofs.Files.Path

/-!
# Files in their folders

A path that ends in a slash leads to a folder; a name behind it leads to something in that folder.
So a file that is reached under a name is among the names that the folder lists.
-/

namespace ProviderDiscovery.FileTree

variable {t : FileTree}

/-- Names are followed one after the other. -/
theorem follow_append_eq_ok_iff {location last names more : List String} :
    t.follow location (names ++ more) = .ok last ↔
      ∃ next, t.follow location names = .ok next ∧ t.follow next more = .ok last := by
  induction names generalizing location with
  | nil => simp [follow]
  | cons name rest ih =>
    rw [List.cons_append, follow, follow]
    cases t.entryAt location with
    | file bytes => simp
    | directory =>
      cases t.enter location name with
      | error fault => simp
      | ok next => exact ih

/-- A name is followed from a folder only. -/
theorem follow_cons_eq_ok_iff {location last rest : List String} {name : String} :
    t.follow location (name :: rest) = .ok last ↔ t.entryAt location = .directory ∧
      ∃ next, t.enter location name = .ok next ∧ t.follow next rest = .ok last := by
  rw [follow]
  cases t.entryAt location with
  | file bytes => simp
  | directory => cases t.enter location name <;> simp

/-- A path is found by following its route, unless its text cannot be that of a path. Before a slash
at its end there has to be a folder. -/
theorem find_eq_ok_iff {p : Path} {location : List String} :
    t.find p = .ok location ↔ '\x00' ∉ p.text.toList ∧ p.text.utf8ByteSize < pathLimit ∧
      p.text ≠ "" ∧ t.follow [] (t.route p) = .ok location ∧
      (p.endsInSlash → t.entryAt location = .directory) := by
  rw [find]
  constructor
  · intro h
    split at h
    · cases h
    rename_i hnull
    split at h
    · cases h
    rename_i hlimit
    split at h
    · cases h
    rename_i hempty
    refine ⟨by simpa using hnull, Nat.not_le.mp hlimit, hempty, ?_⟩
    cases hfollow : t.follow [] (t.route p) with
    | error fault =>
      rw [hfollow] at h
      cases h
    | ok found =>
      rw [hfollow] at h
      cases hentry : t.entryAt found with
      | directory =>
        simp only [hentry] at h
        obtain rfl := Except.ok.inj h
        exact ⟨rfl, fun _ => hentry⟩
      | file bytes =>
        simp only [hentry] at h
        split at h
        · cases h
        · rename_i hslash
          obtain rfl := Except.ok.inj h
          exact ⟨rfl, fun h => absurd h hslash⟩
  · rintro ⟨hnull, hlimit, hempty, hfollow, hslash⟩
    rw [if_neg (by simpa using hnull), if_neg (Nat.not_le.mpr hlimit), if_neg hempty, hfollow]
    cases hentry : t.entryAt location with
    | directory => simp only [hentry]
    | file bytes =>
      have hopen : ¬p.endsInSlash := fun h => by
        rw [hslash h] at hentry
        cases hentry
      simp only [hentry, if_neg hopen]

theorem isFile_iff {p : Path} :
    t.isFile p ↔ ∃ location bytes, t.find p = .ok location ∧ t.entryAt location = .file bytes := by
  rw [isFile, entry]
  cases t.find p with
  | error fault => simp [Except.map]
  | ok location => cases hentry : t.entryAt location <;> simp [Except.map, hentry]

theorem isDirectory_iff {p : Path} :
    t.isDirectory p ↔ ∃ location, t.find p = .ok location ∧ t.entryAt location = .directory := by
  rw [isDirectory, entry]
  cases t.find p with
  | error fault => simp [Except.map]
  | ok location => cases hentry : t.entryAt location <;> simp [Except.map, hentry]

/-- What is joined goes on from where the path leads. -/
theorem route_join {name : String} (hname : (Path.mk name).isAbsolute = false) (p : Path) :
    t.route (p.join name) = t.route p ++ (Path.mk name).names := by
  rw [route, Path.isAbsolute_join hname, Path.names_join hname, route]
  split
  · rfl
  · rw [List.append_assoc]

/-- Plain names lead down from a location. -/
theorem eq_append_of_follow {location names last : List String}
    (hnames : ∀ name ∈ names, Path.IsPlain name)
    (h : t.follow location names = .ok last) : last = location ++ names := by
  induction names generalizing location with
  | nil =>
    rw [List.append_nil]
    exact (Except.ok.inj h).symm
  | cons name rest ih =>
    have hname := hnames name List.mem_cons_self
    obtain ⟨-, next, henter, hrest⟩ := follow_cons_eq_ok_iff.mp h
    have hnext : next = location ++ [name] := by
      unfold enter at henter
      rw [if_neg hname.ne_dot, if_neg hname.ne_dots] at henter
      split at henter
      · cases henter
      · split at henter
        · exact (Except.ok.inj henter).symm
        · cases henter
    rw [hnext] at hrest
    rw [ih (fun n hn => hnames n (List.mem_cons_of_mem name hn)) hrest, List.append_assoc]
    rfl

/-- What is found through a folder lies below the location that the folder leads to. -/
theorem exists_follow_of_find_join {root : Path} {below location : List String}
    (hbelow : ∀ name ∈ below, Path.IsPlain name)
    (h : t.find (root.join (Path.textOf below)) = .ok location) :
    ∃ folder, t.follow [] (t.route root) = .ok folder ∧ location = folder ++ below := by
  have hrelative := Path.isAbsolute_textOf hbelow
  obtain ⟨-, -, -, hfollow, -⟩ := find_eq_ok_iff.mp h
  rw [route_join hrelative, Path.names_textOf hbelow, follow_append_eq_ok_iff] at hfollow
  obtain ⟨folder, hfolder, hdown⟩ := hfollow
  exact ⟨folder, hfolder, eq_append_of_follow hbelow hdown⟩

/-- A file stands at its location. -/
theorem lookup_of_entryAt_eq_file {location : List String} {bytes : List UInt8}
    (h : t.entryAt location = .file bytes) : t.lookup location = some (.file bytes) := by
  rw [entryAt] at h
  cases hlookup : t.lookup location with
  | none =>
    rw [hlookup] at h
    cases h
  | some e =>
    rw [hlookup] at h
    exact congrArg some h

/-- A file that is reached through a folder stands at a location below it. -/
theorem exists_lookup_of_isFile_join {root : Path} {location below : List String}
    (hroot : t.follow [] (t.route root) = .ok location)
    (hbelow : ∀ name ∈ below, Path.IsPlain name) (h : t.isFile (root.join (Path.textOf below))) :
    ∃ bytes, t.lookup (location ++ below) = some (.file bytes) := by
  obtain ⟨found, bytes, hfind, hentry⟩ := isFile_iff.mp h
  obtain ⟨folder, hfolder, rfl⟩ := exists_follow_of_find_join hbelow hfind
  rw [hroot] at hfolder
  obtain rfl := Except.ok.inj hfolder
  exact ⟨bytes, lookup_of_entryAt_eq_file hentry⟩

/-- The bytes that are read through a folder are those of a file below the location that the folder
leads to. -/
theorem exists_lookup_of_read_join {root : Path} {below : List String} {bytes : List UInt8}
    (hbelow : ∀ n ∈ below, Path.IsPlain n)
    (h : t.read (root.join (Path.textOf below)) = .ok bytes) :
    ∃ location, t.follow [] (t.route root) = .ok location ∧
      t.lookup (location ++ below) = some (.file bytes) := by
  rw [read, entry] at h
  cases hfind : t.find (root.join (Path.textOf below)) with
  | error fault =>
    rw [hfind] at h
    cases h
  | ok found =>
    have hentry : t.entryAt found = .file bytes := by
      cases hfound : t.entryAt found with
      | directory => simp [hfind, hfound, Except.map] at h
      | file bytes' => simpa [hfind, hfound, Except.map] using h
    obtain ⟨folder, hfolder, rfl⟩ := exists_follow_of_find_join hbelow hfind
    exact ⟨folder, hfolder, lookup_of_entryAt_eq_file hentry⟩

/-- What a location holds is an entry of the tree, unless it is the folder at the top. -/
theorem mem_entries_of_lookup {location : List String} {e : Entry} (hne : location ≠ [])
    (h : t.lookup location = some e) : (location, e) ∈ t.entries := by
  have hentries : t.entries.lookup location = some e := by
    cases location with
    | nil => exact absurd rfl hne
    | cons name rest => exact h
  obtain ⟨before, behind, hsplit, -⟩ := List.lookup_eq_some_iff.mp hentries
  rw [hsplit]
  exact List.mem_append_right _ List.mem_cons_self

/-- A folder lists the last names of the locations in it. -/
theorem mem_namesIn_iff {location : List String} {name : String} :
    name ∈ t.namesIn location ↔ location ++ [name] ∈ Keyed.keys t.entries := by
  rw [namesIn, List.mem_filterMap, Keyed.keys, List.mem_map]
  refine exists_congr fun slot => and_congr_right fun _ => ?_
  obtain ⟨l, e⟩ := slot
  dsimp only
  constructor
  · intro h
    by_cases hlocation : l.dropLast = location
    · rw [if_pos hlocation] at h
      obtain ⟨front, hfront⟩ := List.getLast?_eq_some_iff.mp h
      rw [← hlocation, hfront, List.dropLast_concat]
    · rw [if_neg hlocation] at h
      cases h
  · intro h
    simp [h]

/-- A name that leads further is listed where it leads from. -/
theorem mem_namesIn_of_enter {location last : List String} {name : String} (hdot : name ≠ ".")
    (hdots : name ≠ "..") (h : t.enter location name = .ok last) : name ∈ t.namesIn location := by
  unfold enter at h
  rw [if_neg hdot, if_neg hdots] at h
  split at h
  · cases h
  · cases hlookup : t.lookup (location ++ [name]) with
    | none => simp [hlookup] at h
    | some e =>
      exact mem_namesIn_iff.mpr (List.mem_map.mpr
        ⟨(_, e), mem_entries_of_lookup (by simp) hlookup, rfl⟩)

/-- The names in a folder can be listed. -/
theorem children_of_find {p : Path} {location : List String} (hfind : t.find p = .ok location)
    (hentry : t.entryAt location = .directory) : t.children p = .ok (t.namesIn location) := by
  simp only [children, hfind, hentry]

theorem exists_children_of_isDirectory {p : Path} (h : t.isDirectory p) :
    ∃ names, t.children p = .ok names := by
  obtain ⟨location, hfind, hentry⟩ := isDirectory_iff.mp h
  exact ⟨_, children_of_find hfind hentry⟩

/-- **A file is listed in its folder.** If a name leads to a file behind a path that ends in a
slash, the path leads to a folder that lists the name. -/
theorem mem_children_of_isFile_join {p : Path} {name : String} (hp : p.endsInSlash)
    (hname : Path.IsPlain name) (h : t.isFile (p.join name)) :
    t.isDirectory p ∧ ∃ names, t.children p = .ok names ∧ name ∈ names := by
  have hempty : p.text ≠ "" := fun hempty => by
    rw [Path.endsInSlash, hempty] at hp
    cases hp
  have hrelative := Path.isAbsolute_eq_false hname.slash
  have hjoin := Path.join_of_endsInSlash hp hrelative
  obtain ⟨last, bytes, hfind, -⟩ := isFile_iff.mp h
  obtain ⟨hnull, hlimit, -, hfollow, -⟩ := find_eq_ok_iff.mp hfind
  -- The route to the file is that to the folder, and then the name.
  rw [route_join hrelative, Path.names_eq_singleton hname.ne_empty hname.slash,
    follow_append_eq_ok_iff] at hfollow
  obtain ⟨folder, hfolder, hlast⟩ := hfollow
  obtain ⟨hentry, next, henter, -⟩ := follow_cons_eq_ok_iff.mp hlast
  have hfound : t.find p = .ok folder := by
    rw [hjoin] at hnull hlimit
    refine find_eq_ok_iff.mpr ⟨fun hc => hnull ?_, ?_, hempty, hfolder, fun _ => hentry⟩
    · rw [String.toList_append]
      exact List.mem_append_left _ hc
    · rw [String.utf8ByteSize_append] at hlimit
      exact Nat.lt_of_le_of_lt (Nat.le_add_right ..) hlimit
  exact ⟨isDirectory_iff.mpr ⟨_, hfound, hentry⟩, _, children_of_find hfound hentry,
    mem_namesIn_of_enter hname.ne_dot hname.ne_dots henter⟩

end ProviderDiscovery.FileTree
