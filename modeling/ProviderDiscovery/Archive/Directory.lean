import ProviderDiscovery.Archive.Closing
import ProviderDiscovery.Archive.ExtraData
import ProviderDiscovery.Archive.Inflate
import ProviderDiscovery.Files.Archive
import ProviderDiscovery.Keyed

/-!
# A reader of archives

An archive holds entries, each a name with bytes. Its central directory stands near the end and
is found through the record that closes the archive. Reading the directory reads no entry: the
bytes of an entry are unpacked, and checked against its checksum, when they are asked for.

Entries are kept under the bytes of their names. Looking for a name looks for its bytes in UTF-8,
so an entry whose name is written in other bytes is listed, but not found.

This is the reader that the program runs with. What is proved holds for any other as well.
-/

namespace ProviderDiscovery

/-- The file of an archive, when its directory has been read. -/
structure ArchiveFile where
  /-- All bytes of the file. -/
  bytes : Array UInt8
  /-- The entries under the bytes of their names. -/
  entries : List (List UInt8 × ArchiveEntry)

namespace Archive

/-- One record of the central directory: the entry, and where the next record starts. The archive
starts at `start` in its file. -/
def readRecord (file : Array UInt8) (start offset : Nat) : Option (ArchiveEntry × Nat) :=
  -- The fixed part takes 46 bytes; the name, extra data and a comment follow it.
  let name := offset + 46
  let extra := name + number file (offset + 28) 2
  let comment := extra + number file (offset + 30) 2
  let next := comment + number file (offset + 32) 2
  if !hasMark file offset recordMark || file.size < next then none
  else
    let flags := number file (offset + 8) 2
    let key := slice file name (extra - name)
    let written : ArchiveEntry := {
      key := key
      name := ArchiveEntry.text (flags.testBit 11) key
      comment := ArchiveEntry.text (flags.testBit 11) (slice file comment (next - comment))
      packing := .ofNumber (number file (offset + 10) 2)
      encrypted := flags.testBit 0
      sealed := false
      checksum := UInt32.ofNat (number file (offset + 16) 4)
      size := number file (offset + 24) 4
      packedSize := number file (offset + 20) 4
      header := number file (offset + 42) 4 }
    (applyExtra written (slice file extra (comment - extra))).bind fun e =>
      if e.packing = .withheld && !e.sealed then none
      else if 2 * placeLimit ≤ e.header + start then none
      else some ({ e with header := e.header + start }, next)

/-- The entries of `n` records of the central directory, behind those of the records before. A
record replaces an earlier one of the same name, in its place. -/
def readRecords (file : Array UInt8) (start : Nat) :
    Nat → Nat → List (List UInt8 × ArchiveEntry) → Option (List (List UInt8 × ArchiveEntry))
  | 0, _, entries => some entries
  | n + 1, offset, entries =>
    (readRecord file start offset).bind fun (e, next) =>
      readRecords file start n next (Keyed.put entries e.key e)

/-- The archive that a closing record belongs to. -/
def ofClosingRecord? (file : Array UInt8) (closing : Nat) : Option ArchiveFile :=
  (directoryPlace? file closing).bind fun p =>
    let first := p.start + p.directory
    if placeLimit ≤ first then none
    else (readRecords file p.start p.records first []).map (⟨file, ·⟩)

/-- The archive that the last fitting closing record before a place belongs to. -/
def ofLastClosingRecord? (file : Array UInt8) : Nat → Option ArchiveFile
  | 0 => none
  | n + 1 => (ofClosingRecord? file n).or (ofLastClosingRecord? file n)

/-- The archive in a file, if there is one. -/
def ofBytes? (bytes : List UInt8) : Option ArchiveFile :=
  let file := bytes.toArray
  ofLastClosingRecord? file file.size

end Archive

namespace ArchiveFile

open Archive

/-- The names of the entries, in the order of the directory. -/
def names (a : ArchiveFile) : List String := a.entries.map (·.2.name)

/-- The entry of a name: the one whose name is written in the bytes of the name. -/
def find? (a : ArchiveFile) (name : String) : Option ArchiveEntry :=
  a.entries.lookup (Text.Utf8.encode name)

/-- The packed bytes of an entry: they follow its header and the name and extra data there. -/
def packed? (a : ArchiveFile) (e : ArchiveEntry) : Option (List UInt8) :=
  if !hasMark a.bytes e.header headerMark || a.bytes.size < e.header + 30 then none
  else
    -- The sizes that the header gives for the name and the extra data may differ from those in the
    -- directory.
    let start := e.header + 30 + number a.bytes (e.header + 26) 2 +
      number a.bytes (e.header + 28) 2
    some (slice a.bytes start e.packedSize)

/-- The bytes of an entry, unpacked; `none` if they do not agree with their checksum. -/
def unpack? (a : ArchiveFile) (e : ArchiveEntry) : Option (List UInt8) :=
  if e.encrypted || e.sealed then none
  else
    let bytes? := (a.packed? e).bind fun bytes =>
      match e.packing with
      | .stored => some bytes
      | .deflated => Inflate.inflate bytes
      | .withheld | .unknown => none
    bytes?.filter fun bytes => checksum bytes == e.checksum

/-- The bytes of the entry of a name. -/
def read? (a : ArchiveFile) (name : String) : Option (List UInt8) :=
  (a.find? name).bind a.unpack?

/-- What the reader makes of a file or a folder. It says no more about a failure than a fault that
is given to it. -/
def reader (complaint : ReadFault) : ArchiveReader
  | .directory => .error complaint
  | .file bytes =>
    match ofBytes? bytes with
    | none => .error complaint
    | some a => .ok ⟨a.names, fun name => (a.read? name).elim (.error complaint) .ok⟩

end ArchiveFile

/-- What is said about an archive that is damaged, or lacks an entry. -/
def ReadFault.damagedArchive : ReadFault := .other "invalid Zip archive"

end ProviderDiscovery
