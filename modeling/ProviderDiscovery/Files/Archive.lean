import ProviderDiscovery.Error

/-!
# Archives

What a location can hold, and what becomes of it when it is opened as an archive. Archives are read
by a library of their own, so a reader of archives is given from outside: everything here holds for
every reader.
-/

namespace ProviderDiscovery

/-- What a location holds. -/
inductive Entry where
  /-- A file with its bytes. -/
  | file (bytes : List UInt8)
  /-- A folder. -/
  | directory
  deriving DecidableEq

/-- An **archive** that has been opened. -/
structure Archive where
  /-- The names of its entries, in the order in which they are listed. -/
  names : List String
  /-- The bytes of the entry of a name, or why they cannot be read. -/
  read : String → Except ReadFault (List UInt8)

/-- A **reader of archives**: the archive that a file is, or why it is none. A folder can be opened
as well, and it is up to the reader what it says about that. -/
abbrev ArchiveReader := Entry → Except ReadFault Archive

end ProviderDiscovery
