import ProviderDiscovery.Archive.Bytes
import ProviderDiscovery.Archive.Checksum
import ProviderDiscovery.Archive.Entry

/-!
# Extra data of an entry

A record of the central directory may carry extra data: fields, each with a kind, a size and a
content, that say more about the entry than the record itself. Some of them change the entry: its
name, its comment, its sizes, its place or its packing. A field that is known and does not have
the form of its kind spoils the whole directory.
-/

namespace ProviderDiscovery.Archive

/-- The kinds of fields. -/
inductive ExtraKind where
  /-- Sizes and the place of the entry in wide numbers. -/
  | wide
  /-- Three times, one after the other. -/
  | times
  /-- As many times as bits of a flag say. -/
  | flaggedTimes
  /-- The comment in UTF-8. -/
  | comment
  /-- The name in UTF-8. -/
  | name
  /-- How the bytes of the entry are encrypted and packed. -/
  | encryption
  /-- A filler that brings the bytes of the entry into place. -/
  | filler
  /-- Any other kind. -/
  | other
  deriving DecidableEq

/-- The kind of a number. -/
def ExtraKind.ofNumber : Nat → ExtraKind
  | 0x0001 => .wide
  | 0x000a => .times
  | 0x5455 => .flaggedTimes
  | 0x6375 => .comment
  | 0x7075 => .name
  | 0x9901 => .encryption
  | 0xa11e => .filler
  | _ => .other

/-- Reads a wide number where one is due: the number, or else the one that was known before, and
the bytes that follow. -/
def readWide (due : Bool) (known : Nat) (bytes : List UInt8) : Option (Nat × List UInt8) :=
  if !due then some (known, bytes)
  else if bytes.length < 8 then none
  else some (littleEndian (bytes.take 8), bytes.drop 8)

/-- Applies wide numbers: the unpacked size, the packed size and the place of the header, in this
order. One is given if the record leaves it out, and all are given if the field has room for
them. -/
def applyWide (e : ArchiveEntry) (size : Nat) (bytes : List UInt8) : Option ArchiveEntry := do
  let all := decide (24 ≤ size)
  let (unpacked, rest) ← readWide (all || e.size == narrowLimit) e.size bytes
  let (packed, rest) ← readWide (all || e.packedSize == narrowLimit) e.packedSize rest
  let (header, rest) ← readWide (all || e.header == narrowLimit) e.header rest
  if size < bytes.length - rest.length then none
  else some { e with size := unpacked, packedSize := packed, header := header }

/-- Whether a field of times has the only form that is known. -/
def isTimes (size : Nat) (bytes : List UInt8) : Bool :=
  size == 32 && 32 ≤ bytes.length &&
    littleEndian ((bytes.drop 4).take 2) == 1 && littleEndian ((bytes.drop 6).take 2) == 24

/-- The number of set bits among the first `n` bits of a number. -/
def setBits (number n : Nat) : Nat := (List.range n).countP number.testBit

/-- The number of bytes that a field of flagged times takes. A field of five bytes holds one time,
whatever its flag says; any other has four bytes for every bit of the flag, but only the first
three bits stand for times that are read. -/
def flaggedTimes? (size : Nat) : List UInt8 → Option Nat
  | [] => none
  | flag :: rest =>
    let times := if size = 5 then 1 else setBits flag.toNat 3
    if size ≠ 5 && size ≠ 1 + 4 * setBits flag.toNat 8 then none
    else if rest.length < 4 * times then none
    else some (1 + 4 * times)

/-- The text of a field of UTF-8. Before it stand a version and the checksum of the bytes that it
is to replace. -/
def replacement? (replaced : List UInt8) (size : Nat) (bytes : List UInt8) : Option (List UInt8) :=
  if size < 5 || bytes.length < size then none
  else if littleEndian ((bytes.drop 1).take 4) != (checksum replaced).toNat then none
  else some ((bytes.take size).drop 5)

/-- Applies what a field says about encryption: a version, a maker, a strength and the packing. -/
def applyEncryption (e : ArchiveEntry) (size : Nat) (bytes : List UInt8) : Option ArchiveEntry :=
  let version := littleEndian (bytes.take 2)
  let maker := littleEndian ((bytes.drop 2).take 2)
  let strength := littleEndian ((bytes.drop 4).take 1)
  if size != 7 || bytes.length < 7 || maker != 0x4541 then none
  else if version < 1 || 2 < version || strength < 1 || 3 < strength then none
  else some { e with
    packing := .ofNumber (littleEndian ((bytes.drop 5).take 2))
    sealed := true }

/-- Applies a field, given the bytes from its content on: the entry, and the number of bytes that
the field takes. -/
def applyField (e : ArchiveEntry) (kind : ExtraKind) (size : Nat) (bytes : List UInt8) :
    Option (ArchiveEntry × Nat) :=
  match kind with
  | .wide => (applyWide e size bytes).map (·, size)
  | .times => if isTimes size bytes then some (e, size) else none
  | .flaggedTimes => (flaggedTimes? size bytes).map (e, ·)
  | .comment => do
    let text ← replacement? (Text.Utf8.encode e.comment) size bytes
    let chars ← Text.Utf8.decode text
    return ({ e with comment := String.ofList chars }, size)
  | .name => do
    let text ← replacement? e.key size bytes
    let chars ← Text.Utf8.decode text
    return ({ e with key := text, name := String.ofList chars }, size)
  | .encryption => (applyEncryption e size bytes).map (·, size)
  | .filler | .other => if bytes.length < size then none else some (e, size)

/-- Applies **extra data**, field by field. At the end, up to three bytes that are too few for a
field do not count, unless they start one of a known kind. -/
def applyExtra (e : ArchiveEntry) : List UInt8 → Option ArchiveEntry
  | k :: k' :: s :: s' :: rest =>
    (applyField e (.ofNumber (littleEndian [k, k'])) (littleEndian [s, s']) rest).bind
      fun (e, size) => applyExtra e (rest.drop size)
  | k :: k' :: _ => if ExtraKind.ofNumber (littleEndian [k, k']) = .other then some e else none
  | _ => some e
termination_by bytes => bytes.length
decreasing_by simp only [List.length_cons, List.length_drop]; omega

end ProviderDiscovery.Archive
