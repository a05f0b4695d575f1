import ProviderDiscovery.Archive.Directory
import ProviderDiscovery.Files.Path
import ProviderDiscovery.Keyed

/-!
# Trees of files

The files and folders that a discovery can see, by location. Locations start at the root. A path is
followed name by name, as a file system does it: every name but the last has to lead to a folder,
and two dots lead back. A path that is not absolute goes on from the working folder.
-/

namespace ProviderDiscovery

/-- A **tree of files**: what each location holds. A location is the list of names that leads to it
from the root. -/
structure FileTree where
  /-- The locations and what they hold, in the order in which they were made. -/
  entries : List (List String × Entry)
  /-- The location of the working folder. -/
  working : List String
  /-- What becomes of a file that is opened as an archive. -/
  archives : ArchiveReader

namespace FileTree

/-- The tree of an empty working folder, in which archives are read by a reader. -/
def empty (archives : ArchiveReader) : FileTree := ⟨[(["work"], .directory)], ["work"], archives⟩

instance : EmptyCollection FileTree := ⟨empty (ArchiveFile.reader .damagedArchive)⟩

/-- What a location holds. The root is always a folder. -/
def lookup (t : FileTree) : List String → Option Entry
  | [] => some .directory
  | location => t.entries.lookup location

/-- What a location holds that was reached. -/
def entryAt (t : FileTree) (location : List String) : Entry := (t.lookup location).getD .directory

/-- The longest name, in bytes, that a folder keeps. -/
def longestName : Nat := 255

/-- The number of bytes from which on a path is too long. -/
def pathLimit : Nat := 4096

/-- One name further from a folder. -/
def enter (t : FileTree) (location : List String) (name : String) :
    Except ReadFault (List String) :=
  if name = "." then .ok location
  -- Behind the root there is the root again.
  else if name = ".." then .ok location.dropLast
  else if longestName < name.utf8ByteSize then .error .nameTooLong
  else if (t.lookup (location ++ [name])).isSome then .ok (location ++ [name])
  else .error .notFound

/-- The location that names lead to, one after the other. -/
def follow (t : FileTree) (location : List String) : List String → Except ReadFault (List String)
  | [] => .ok location
  | name :: rest =>
    match t.entryAt location with
    | .file _ => .error .notADirectory
    | .directory =>
      match t.enter location name with
      | .error fault => .error fault
      | .ok next => t.follow next rest

/-- The names on the **route** to where a path leads, from the root on. -/
def route (t : FileTree) (p : Path) : List String :=
  if p.isAbsolute then p.names else t.working ++ p.names

/-- The location that a path leads to. -/
def find (t : FileTree) (p : Path) : Except ReadFault (List String) :=
  if p.text.toList.contains '\x00' then .error .nullInPath
  else if pathLimit ≤ p.text.utf8ByteSize then .error .nameTooLong
  else if p.text = "" then .error .notFound
  else
    match t.follow [] (t.route p) with
    | .error fault => .error fault
    | .ok location =>
      match t.entryAt location with
      | .file _ => if p.endsInSlash then .error .notADirectory else .ok location
      | .directory => .ok location

/-- What a path leads to. -/
def entry (t : FileTree) (p : Path) : Except ReadFault Entry := (t.find p).map t.entryAt

/-- Whether a path leads to a file. -/
def isFile (t : FileTree) (p : Path) : Bool :=
  match t.entry p with
  | .ok (.file _) => true
  | _ => false

/-- Whether a path leads to a folder. -/
def isDirectory (t : FileTree) (p : Path) : Bool :=
  match t.entry p with
  | .ok .directory => true
  | _ => false

/-- The bytes of the file that a path leads to. -/
def read (t : FileTree) (p : Path) : Except ReadFault (List UInt8) :=
  match t.entry p with
  | .ok (.file bytes) => .ok bytes
  | .ok .directory => .error .isADirectory
  | .error fault => .error fault

/-- The names that a folder holds, in the order in which they were made. -/
def namesIn (t : FileTree) (location : List String) : List String :=
  t.entries.filterMap fun (l, _) => if l.dropLast = location then l.getLast? else none

/-- The names in the folder that a path leads to. -/
def children (t : FileTree) (p : Path) : Except ReadFault (List String) :=
  match t.find p with
  | .error fault => .error fault
  | .ok location =>
    match t.entryAt location with
    | .file _ => .error .notADirectory
    | .directory => .ok (t.namesIn location)

/-! ### Changing a tree -/

/-- The tree with something else at one location. A location that was there keeps its turn. -/
def set (t : FileTree) (location : List String) (e : Entry) : FileTree :=
  { t with entries := Keyed.put t.entries location e }

/-- Follows names and makes the folders that are missing on the way. -/
def grow (t : FileTree) (location : List String) :
    List String → Except ReadFault (FileTree × List String)
  | [] =>
    match t.entryAt location with
    | .file _ => .error .notADirectory
    | .directory => .ok (t, location)
  | name :: rest =>
    match t.entryAt location with
    | .file _ => .error .notADirectory
    | .directory =>
      match t.enter location name with
      | .ok next => t.grow next rest
      -- The name is free, so a folder can be made there.
      | .error .notFound => (t.set (location ++ [name]) .directory).grow (location ++ [name]) rest
      | .error fault => .error fault

/-- The tree with a folder at a path, and with the folders that lead to it. A path that cannot be
made changes nothing. -/
def makeDirectory (t : FileTree) (p : Path) : FileTree :=
  match t.grow [] (t.route p) with
  | .ok (grown, _) => grown
  | .error _ => t

/-- The tree with a file at a path, and with the folders that lead to it. A path that cannot be
made, or that a folder has, changes nothing. -/
def write (t : FileTree) (p : Path) (bytes : List UInt8) : FileTree :=
  match p.names.getLast? with
  | none => t
  | some name =>
    if p.endsInSlash || name = "." || name = ".." || longestName < name.utf8ByteSize then t
    else
      match t.grow [] (t.route p).dropLast with
      | .ok (grown, location) =>
        if grown.lookup (location ++ [name]) = some .directory then grown
        else grown.set (location ++ [name]) (.file bytes)
      | .error _ => t

/-- The tree without what a path leads to, and without all below it. The working folder stays, and
so do the folders above it. -/
def erase (t : FileTree) (p : Path) : FileTree :=
  match t.find p with
  | .ok location =>
    if location.isPrefixOf t.working then t
    else { t with entries := t.entries.filter fun (l, _) => !location.isPrefixOf l }
  | .error _ => t

end FileTree

end ProviderDiscovery
