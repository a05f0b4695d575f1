import ProviderDiscovery.Archive.CodePage437
import ProviderDiscovery.Text.Utf8

/-!
# Entries of an archive

What the central directory of an archive says about one entry. An entry is known under the bytes
of its name; the text of the name is for reading, and two names may read alike.
-/

namespace ProviderDiscovery

/-- How the bytes of an entry are packed. -/
inductive Packing where
  /-- They stand in the archive as they are. -/
  | stored
  /-- They are compressed. -/
  | deflated
  /-- They are encrypted, and only the extra data of the record says how they are packed. -/
  | withheld
  /-- They cannot be unpacked here. -/
  | unknown
  deriving DecidableEq

/-- The packing of a number. -/
def Packing.ofNumber : Nat → Packing
  | 0 => .stored
  | 8 => .deflated
  | 99 => .withheld
  | _ => .unknown

/-- An **entry** of an archive. -/
structure ArchiveEntry where
  /-- The bytes of its name. -/
  key : List UInt8
  /-- Its name. -/
  name : String
  /-- A comment on it. -/
  comment : String
  /-- How its bytes are packed. -/
  packing : Packing
  /-- Whether a flag says that its bytes are encrypted. -/
  encrypted : Bool
  /-- Whether its extra data says how its bytes are encrypted. -/
  sealed : Bool
  /-- The checksum of the unpacked bytes. -/
  checksum : UInt32
  /-- The number of unpacked bytes. -/
  size : Nat
  /-- The number of packed bytes. -/
  packedSize : Nat
  /-- Where its header stands. -/
  header : Nat
  deriving DecidableEq

/-- The text of a name or a comment, from its bytes. -/
def ArchiveEntry.text (isUtf8 : Bool) (bytes : List UInt8) : String :=
  String.ofList (if isUtf8 then Text.Utf8.decodeLossy bytes else Archive.CodePage437.decode bytes)

end ProviderDiscovery
