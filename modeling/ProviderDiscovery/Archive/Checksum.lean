/-!
# Cyclic redundancy check

The 32-bit checksum that an archive keeps of every entry, with the reversed polynomial
`0xedb88320`, bit by bit.
-/

namespace ProviderDiscovery.Archive

/-- The reversed polynomial of the checksum. -/
def polynomial : UInt32 := 0xedb88320

/-- The remainder after one more bit. -/
def checksumBit (r : UInt32) : UInt32 :=
  if r &&& 1 = 1 then (r >>> 1) ^^^ polynomial else r >>> 1

/-- The remainder after one more byte. -/
def checksumByte (r : UInt32) (b : UInt8) : UInt32 :=
  Nat.repeat checksumBit 8 (r ^^^ b.toUInt32)

/-- The **checksum** of bytes. -/
def checksum (bytes : List UInt8) : UInt32 :=
  bytes.foldl checksumByte 0xffffffff ^^^ 0xffffffff

end ProviderDiscovery.Archive
