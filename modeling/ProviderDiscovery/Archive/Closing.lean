import ProviderDiscovery.Archive.Bytes

/-!
# The end of an archive

An archive ends with a closing record, which says where its central directory stands and how many
records it holds. Numbers that the closing record has no room for stand in a wide closing record
before it, which a locator leads to. Places count from the start of the archive; as other bytes may
stand before it in its file, the start is found from where a mark really stands.
-/

namespace ProviderDiscovery.Archive

/-- Where a central directory stands. -/
structure DirectoryPlace where
  /-- Where the archive starts in its file. -/
  start : Nat
  /-- Where the directory starts in the archive. -/
  directory : Nat
  /-- The number of its records. -/
  records : Nat
  deriving DecidableEq

/-- The place that a closing record gives in its own numbers. The first record of the directory
may stand behind the place that is given for it, by as much as precedes the archive; an archive
without records ends its directory at the closing record. -/
def narrowPlace? (file : Array UInt8) (closing : Nat) : Option DirectoryPlace :=
  -- The disks stand at 4 and 6, the numbers of records at 8 and 10, and the place of the directory
  -- at 16.
  let directory := number file (closing + 16) 4
  if number file (closing + 4) 2 != number file (closing + 6) 2 then none
  else
    let first? := findFrom (fun place => if hasMark file place recordMark then some place else none)
      (closing - directory) directory
    let start? := if number file (closing + 10) 2 = 0 then some (closing - directory)
      else first?.map (· - directory)
    start?.map fun start => ⟨start, directory, number file (closing + 8) 2⟩

/-- The place that a wide closing record gives, if it stands at a place and is in order. The
locator expects it at `expected`. -/
def wideRecordPlace? (file : Array UInt8) (locator expected wide : Nat) : Option DirectoryPlace :=
  -- The size of what follows stands at 4, the version of the writer at 12 and the one that a
  -- reader needs at 14, the disks at 16 and 20, the numbers of records at 24 and 32, and the place
  -- of the directory at 48.
  let records := number file (wide + 32) 8
  let directory := number file (wide + 48) 8
  if !hasMark file wide wideClosingMark || locator < wide + 56 then none
  else if number file (wide + 4) 8 + 12 != locator - wide then none
  else if number file (wide + 20) 4 != number file (locator + 4) 4 then none
  else if wide < records * 46 + directory then none
  else some ⟨wide - expected, directory, records⟩

/-- Whether the numbers of a wide closing record agree with each other. -/
def isWideRecord (file : Array UInt8) (wide : Nat) : Bool :=
  number file (wide + 24) 8 ≤ number file (wide + 32) 8 &&
    number file (wide + 14) 2 ≤ number file (wide + 12) 2 &&
    number file (wide + 16) 4 == number file (wide + 20) 4

/-- The place that the wide closing record of a locator gives. -/
def widePlace? (file : Array UInt8) (locator : Nat) : Option DirectoryPlace :=
  -- The place of the wide closing record stands at 8, and the number of disks at 16.
  let expected := number file (locator + 8) 8
  if 1 < number file (locator + 16) 4 then none
  else
    let found? := findFrom (fun wide => (wideRecordPlace? file locator expected wide).map (wide, ·))
      (locator - expected) expected
    found?.bind fun (wide, place) => if isWideRecord file wide then some place else none

/-- Whether a closing record leaves a number to a wide one. -/
def isShortened (file : Array UInt8) (closing : Nat) : Bool :=
  number file (closing + 10) 2 == 0xffff || number file (closing + 12) 4 == narrowLimit ||
    number file (closing + 16) 4 == narrowLimit

/-- The **place of the central directory** that a closing record leads to, if one stands at a place
and fits into the file with its comment. -/
def directoryPlace? (file : Array UInt8) (closing : Nat) : Option DirectoryPlace :=
  -- The size of the comment stands at 20; the locator takes 20 bytes.
  if !hasMark file closing closingMark || file.size < closing + 22 then none
  else if file.size < closing + 22 + number file (closing + 20) 2 then none
  else if isShortened file closing && 20 ≤ closing && hasMark file (closing - 20) wideLocatorMark
  then widePlace? file (closing - 20)
  else narrowPlace? file closing

end ProviderDiscovery.Archive
