import ProviderDiscovery.Proofs.Files.Tree

/-!
# Contents of folders and archives

The same files can lie below a folder or in an archive. `Contents` is a finite map from the
locations of files to their bytes; `FileTree.Holds` says that a folder holds exactly these files,
and `Archive.Holds` that an archive does. Both find a file under the text of its location, and under
no other text.
-/

namespace ProviderDiscovery

/-- **Contents**: files by their locations below some folder. -/
structure Contents where
  /-- The locations with the bytes of the files. -/
  entries : List (List String × List UInt8)
  /-- No location occurs twice. -/
  nodup : (Keyed.keys entries).Nodup
  /-- Each file has a name. -/
  ne_nil : ∀ location ∈ Keyed.keys entries, location ≠ []
  /-- The names are such that folders can have them. -/
  plain : ∀ location ∈ Keyed.keys entries, ∀ name ∈ location, Path.IsPlain name
  /-- No file lies below another. -/
  apart : ∀ location ∈ Keyed.keys entries, ∀ below, below ≠ [] →
    location ++ below ∉ Keyed.keys entries

namespace Contents

/-- The locations of the files. -/
def locations (c : Contents) : List (List String) := Keyed.keys c.entries

theorem mem_locations_iff {c : Contents} {location : List String} :
    location ∈ c.locations ↔ ∃ bytes, (location, bytes) ∈ c.entries := by
  simp [locations, Keyed.keys]

end Contents

/-! ### Folders -/

/-- A path leads to a folder that **holds** contents: each file of the contents can be read through
the path, and nothing else below the folder is a file. -/
structure FileTree.Holds (t : FileTree) (root : Path) (location : List String) (c : Contents) :
    Prop where
  /-- The names of the path lead to the location. -/
  leads : t.follow [] (t.route root) = .ok location
  /-- The names below the location are such that folders can have them. -/
  plain : ∀ below, location ++ below ∈ Keyed.keys t.entries → ∀ name ∈ below, Path.IsPlain name
  /-- Only files of the contents lie below the location. -/
  only : ∀ below bytes, t.lookup (location ++ below) = some (.file bytes) → below ∈ c.locations
  /-- The files of the contents can be read. -/
  reads : ∀ below bytes, (below, bytes) ∈ c.entries →
    t.read (root.join (Path.textOf below)) = .ok bytes

namespace FileTree.Holds

variable {t : FileTree} {root : Path} {location : List String} {c : Contents}

/-- A folder has the files of its contents. -/
theorem isFile_iff (h : t.Holds root location c) {below : List String}
    (hbelow : ∀ name ∈ below, Path.IsPlain name) :
    t.isFile (root.join (Path.textOf below)) ↔ below ∈ c.locations := by
  constructor
  · intro hfile
    obtain ⟨bytes, hlookup⟩ := exists_lookup_of_isFile_join h.leads hbelow hfile
    exact h.only below bytes hlookup
  · intro hmem
    obtain ⟨bytes, hbytes⟩ := Contents.mem_locations_iff.mp hmem
    have hread := h.reads below bytes hbytes
    rw [read] at hread
    rw [isFile]
    split at hread
    · rename_i hentry
      rw [hentry]
    · cases hread
    · cases hread

/-- What a folder below lists are plain names. -/
theorem isPlain_of_mem_children (h : t.Holds root location c) {below names : List String}
    {folder name : String} (hfolder : (Path.mk folder).isAbsolute = false)
    (hnames : (Path.mk folder).names = below) (hbelow : ∀ n ∈ below, Path.IsPlain n)
    (hchildren : t.children (root.join folder) = .ok names) (hname : name ∈ names) :
    Path.IsPlain name := by
  rw [children] at hchildren
  split at hchildren
  · cases hchildren
  · rename_i place hfind
    split at hchildren
    · cases hchildren
    · obtain rfl := Except.ok.inj hchildren
      obtain ⟨-, -, -, hfollow, -⟩ := find_eq_ok_iff.mp hfind
      rw [route_join hfolder, hnames, follow_append_eq_ok_iff] at hfollow
      obtain ⟨next, hnext, hdown⟩ := hfollow
      rw [h.leads] at hnext
      obtain rfl := Except.ok.inj hnext
      obtain rfl := eq_append_of_follow hbelow hdown
      have hkey := mem_namesIn_iff.mp hname
      rw [List.append_assoc] at hkey
      exact h.plain _ hkey name (by simp)

end FileTree.Holds

/-! ### Archives -/

/-- An archive **holds** contents: its entries are the files of the contents, each once, and
folders, and the files can be read. -/
structure Archive.Holds (a : Archive) (c : Contents) : Prop where
  /-- The names of the entries are those of the files and of folders. -/
  names : ∃ folders, a.names.Perm (c.locations.map Path.textOf ++ folders) ∧
    ∀ folder ∈ folders, (Path.mk folder).endsInSlash
  /-- The files of the contents can be read. -/
  reads : ∀ location bytes, (location, bytes) ∈ c.entries →
    a.read (Path.textOf location) = .ok bytes

/-- An archive has the files of its contents. -/
theorem Archive.Holds.mem_names_iff {a : Archive} {c : Contents} (h : a.Holds c)
    {location : List String} (hne : location ≠ [])
    (hlocation : ∀ name ∈ location, Path.IsPlain name) :
    Path.textOf location ∈ a.names ↔ location ∈ c.locations := by
  obtain ⟨folders, hnames, hfolders⟩ := h.names
  rw [hnames.mem_iff, List.mem_append, List.mem_map]
  constructor
  · rintro (⟨other, hother, htext⟩ | hfolder)
    · rwa [← (Path.textOf_inj (c.plain other hother) hlocation).mp htext]
    · exact absurd (hfolders _ hfolder) (by simp [Path.endsInSlash_textOf hne hlocation])
  · exact fun hmem => .inl ⟨location, hmem, rfl⟩

end ProviderDiscovery
