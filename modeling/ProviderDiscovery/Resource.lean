import ProviderDiscovery.Files.Tree

/-!
# Resources

A resource is found without being read; opening it may fail, reading it may break off, and it may
give other bytes than an earlier reading if files have changed in between.
-/

namespace ProviderDiscovery

/-- What **opening** a resource comes to. -/
inductive Opened where
  /-- It cannot be opened. -/
  | error (cause : ReadFault)
  /-- It can be read to its end, and gives these bytes. -/
  | ok (bytes : List UInt8)
  /-- It gives these bytes, and then the reading breaks off. -/
  | broken (bytes : List UInt8) (cause : ReadFault)
  deriving DecidableEq

/-- The bytes of what has been opened, all of them, or why there are not all of them. -/
def Opened.read : Opened → Except ReadFault (List UInt8)
  | .error cause => .error cause
  | .ok bytes => .ok bytes
  | .broken _ cause => .error cause

/-- Where the bytes of a resource come from. -/
inductive ResourceOrigin where
  /-- From memory, where what opening it comes to is kept. -/
  | memory (content : Opened)
  /-- From a file. -/
  | file (path : Path)
  /-- From an entry of an archive. -/
  | archiveEntry (archive : Path) (entry : String)
  deriving DecidableEq

/-- A **resource**: a place that bytes can be read from, under an identifier. -/
structure Resource where
  /-- The identifier of the resource. -/
  id : ResourceId
  /-- Where its bytes come from. -/
  origin : ResourceOrigin
  deriving DecidableEq

namespace Resource

/-- A resource in memory. -/
def ofBytes (id : ResourceId) (bytes : List UInt8) : Resource := ⟨id, .memory (.ok bytes)⟩

/-- The identifier of a file's resource. -/
def fileId (path : Path) : ResourceId := ⟨"file:" ++ path.text⟩

/-- The resource of a file. -/
def ofFile (path : Path) : Resource := ⟨fileId path, .file path⟩

/-- The identifier of the resource of an archive's entry. -/
def archiveEntryId (archive : Path) (entry : String) : ResourceId :=
  ⟨"jar:file:" ++ archive.text ++ "!/" ++ entry⟩

/-- The resource of an archive's entry. -/
def ofArchiveEntry (archive : Path) (entry : String) : Resource :=
  ⟨archiveEntryId archive entry, .archiveEntry archive entry⟩

/-- Opens a file. A folder can be opened, but not read. -/
def openFile (files : FileTree) (path : Path) : Opened :=
  match files.entry path with
  | .error fault => .error fault
  | .ok (.file bytes) => .ok bytes
  | .ok .directory => .broken [] .isADirectory

/-- Opens an entry of the archive in a file. All its bytes are read when it is opened. -/
def openArchiveEntry (files : FileTree) (archive : Path) (entry : String) : Opened :=
  match (files.entry archive).bind files.archives with
  | .error fault => .error fault
  | .ok a =>
    match a.read entry with
    | .error fault => .error fault
    | .ok bytes => .ok bytes

/-- Opens a resource, as the files are now. -/
def opened (r : Resource) (files : FileTree) : Opened :=
  match r.origin with
  | .memory content => content
  | .file path => openFile files path
  | .archiveEntry archive entry => openArchiveEntry files archive entry

/-- The bytes of a resource, as the files are now. -/
def read (r : Resource) (files : FileTree) : Except ReadFault (List UInt8) := (r.opened files).read

/-- The bytes of a file's resource are those of the file. -/
theorem read_ofFile (path : Path) (files : FileTree) :
    (ofFile path).read files = files.read path := by
  show (openFile files path).read = _
  rw [openFile, FileTree.read]
  rcases files.entry path with fault | _ | _ <;> rfl

/-- The bytes of the resource of an archive's entry are those that the archive gives. -/
theorem read_ofArchiveEntry (archive : Path) (entry : String) (files : FileTree) :
    (ofArchiveEntry archive entry).read files =
      ((files.entry archive).bind files.archives).bind (·.read entry) := by
  show (openArchiveEntry files archive entry).read = _
  rw [openArchiveEntry]
  cases (files.entry archive).bind files.archives with
  | error fault => rfl
  | ok a => cases hread : a.read entry <;> simp only [Except.bind, hread] <;> rfl

end Resource

end ProviderDiscovery
