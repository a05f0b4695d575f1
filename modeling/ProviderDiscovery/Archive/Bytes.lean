/-!
# Numbers and marks in a file

The structure of an archive is written in numbers of fixed size, low byte first, at places that
other numbers give; every part of it starts with a mark of four bytes.
-/

namespace ProviderDiscovery.Archive

/-- The number that bytes stand for, low byte first. -/
def littleEndian (bytes : List UInt8) : Nat := bytes.foldr (fun b n => b.toNat + 256 * n) 0

/-- The bytes of a part of a file; fewer, if the file ends before. -/
def slice (file : Array UInt8) (start size : Nat) : List UInt8 :=
  (file.extract start (start + size)).toList

/-- The number in `size` bytes of a file. -/
def number (file : Array UInt8) (start size : Nat) : Nat := littleEndian (slice file start size)

/-- Whether a mark stands at a place. -/
def hasMark (file : Array UInt8) (start mark : Nat) : Bool :=
  start + 4 ≤ file.size && number file start 4 == mark

/-- What is found at the first of `n` places from `place` on where something is found. -/
def findFrom {α : Type} (found? : Nat → Option α) : Nat → Nat → Option α
  | 0, _ => none
  | n + 1, place => (found? place).or (findFrom found? n (place + 1))

/-- The mark of an entry's header. -/
def headerMark : Nat := 0x04034b50

/-- The mark of a record of the central directory. -/
def recordMark : Nat := 0x02014b50

/-- The mark of the record that closes an archive. -/
def closingMark : Nat := 0x06054b50

/-- The mark of the record that closes an archive in wide numbers. -/
def wideClosingMark : Nat := 0x06064b50

/-- The mark of the record that says where the wide closing record stands. -/
def wideLocatorMark : Nat := 0x07064b50

/-- The number that marks a size or a place of four bytes as given elsewhere, in eight. -/
def narrowLimit : Nat := 0xffffffff

/-- Places in a file lie below this bound. -/
def placeLimit : Nat := 0x8000000000000000

end ProviderDiscovery.Archive
