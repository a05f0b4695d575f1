/-!
# Inflating

Undoing the compression of an archive entry. The compressed data are a sequence of bits, the low
bit of each byte first: blocks that hold bytes as they are, or bytes and repetitions in prefix
codes that are fixed or that the block describes first.

Compressed data may end anywhere: they stand for the bytes that are complete by then. Bits that no
rule allows, on the other hand, spoil all of the data.

All loops are bounded by the number of bits left, since each round takes at least one.
-/

namespace ProviderDiscovery.Archive.Inflate

/-- Why reading cannot go on. -/
inductive Stop where
  /-- The data end. -/
  | ended
  /-- The next bits are not allowed. -/
  | malformed
  deriving DecidableEq

/-- The bits of a byte, low bit first. -/
def bitsOfByte (b : UInt8) : List Bool := (List.range 8).map fun i => b.toNat.testBit i

/-- The bits of bytes, in reading order. -/
def bitsOf (bytes : List UInt8) : List Bool := bytes.flatMap bitsOfByte

/-- The number in the next `n` bits, low bit first, and the bits behind. -/
def takeNumber : Nat → List Bool → Except Stop (Nat × List Bool)
  | 0, bits => .ok (0, bits)
  | _ + 1, [] => .error .ended
  | n + 1, b :: bits => (takeNumber n bits).map fun (v, rest) => (b.toNat + 2 * v, rest)

/-! ### Prefix codes -/

/-- A **prefix code** in canonical form: how many symbols have a code word of each length from
one on, and the symbols in the order of their code words. -/
structure PrefixCode where
  /-- The number of code words of each length. -/
  counts : List Nat
  /-- The symbols, shortest code word first. -/
  symbols : Array Nat

/-- The longest code word. -/
def longestWord : Nat := 15

/-- The code in which symbol `i` has a code word of the `i`-th length; length zero means none. -/
def PrefixCode.ofLengths (lengths : List Nat) : PrefixCode :=
  let ofLength (n : Nat) : List Nat :=
    (lengths.zipIdx.filter fun (l, _) => l = n).map fun (_, i) => i
  let wordLengths := (List.range longestWord).map (· + 1)
  ⟨wordLengths.map lengths.count, (wordLengths.flatMap ofLength).toArray⟩

/-- How many words of the greatest length the code could still take; `none` if it has too many
already. -/
def PrefixCode.room (c : PrefixCode) : Option Nat :=
  c.counts.foldl (fun left count => left.bind fun n =>
    if count ≤ 2 * n then some (2 * n - count) else none) (some 1)

/-- Whether every sequence of bits starts with a code word. -/
def PrefixCode.isComplete (c : PrefixCode) : Bool := c.room == some 0

/-- Whether the code is complete, or has too few words but at most one of length one. -/
def PrefixCode.isUsable (c : PrefixCode) : Bool :=
  match c.room with
  | none => false
  | some 0 => true
  | some _ => (c.counts.drop 1).all (· == 0)

/-- Reads one code word. `code` is the word so far, `firstWord` the first word of its length and
`index` the number of shorter words. Bits that no longer word starts with are not allowed. -/
def readWord (symbols : Array Nat) (code firstWord index : Nat) :
    List Nat → List Bool → Except Stop (Nat × List Bool)
  | _, [] => .error .ended
  | [], _ => .error .malformed
  | count :: counts, b :: bits =>
    let code := code + b.toNat
    if code < firstWord + count then
      match symbols[index + (code - firstWord)]? with
      | some symbol => .ok (symbol, bits)
      | none => .error .malformed
    else if counts.all (· == 0) then .error .malformed
    else readWord symbols (2 * code) (2 * (firstWord + count)) (index + count) counts bits

/-- The symbol of the next code word, and the bits behind. -/
def PrefixCode.read (c : PrefixCode) (bits : List Bool) : Except Stop (Nat × List Bool) :=
  readWord c.symbols 0 0 0 c.counts bits

/-! ### Repetitions -/

/-- Least length and number of further bits for each length symbol. -/
def lengthSymbols : List (Nat × Nat) := [
  (3, 0), (4, 0), (5, 0), (6, 0), (7, 0), (8, 0), (9, 0), (10, 0), (11, 1), (13, 1), (15, 1),
  (17, 1), (19, 2), (23, 2), (27, 2), (31, 2), (35, 3), (43, 3), (51, 3), (59, 3), (67, 4),
  (83, 4), (99, 4), (115, 4), (131, 5), (163, 5), (195, 5), (227, 5), (258, 0)]

/-- Least distance and number of further bits for each distance symbol. -/
def distanceSymbols : List (Nat × Nat) := [
  (1, 0), (2, 0), (3, 0), (4, 0), (5, 1), (7, 1), (9, 2), (13, 2), (17, 3), (25, 3), (33, 4),
  (49, 4), (65, 5), (97, 5), (129, 6), (193, 6), (257, 7), (385, 7), (513, 8), (769, 8),
  (1025, 9), (1537, 9), (2049, 10), (3073, 10), (4097, 11), (6145, 11), (8193, 12), (12289, 12),
  (16385, 13), (24577, 13)]

/-- The number that a symbol of a table and its further bits stand for. -/
def readExtended (table : List (Nat × Nat)) (symbol : Nat) (bits : List Bool) :
    Except Stop (Nat × List Bool) :=
  match table[symbol]? with
  | none => .error .malformed
  | some (least, further) => (takeNumber further bits).map fun (more, bits) => (least + more, bits)

/-- Repeats `n` bytes from `distance` bytes before the end. -/
def repeatBytes (distance : Nat) : Nat → Array UInt8 → Array UInt8
  | 0, out => out
  | n + 1, out => repeatBytes distance n (out.push (out.getD (out.size - distance) 0))

/-- What a block in prefix codes consists of. -/
inductive Item where
  /-- One byte. -/
  | byte (b : UInt8)
  /-- Bytes that stood before. -/
  | repetition (length distance : Nat)
  /-- The end of the block. -/
  | endOfBlock
  deriving DecidableEq

/-- The symbol that ends a block. -/
def endSymbol : Nat := 256

/-- The next item of a block, and the bits behind. -/
def readItem (literals distances : PrefixCode) (bits : List Bool) :
    Except Stop (Item × List Bool) := do
  let (symbol, bits) ← literals.read bits
  if symbol < endSymbol then return (.byte (UInt8.ofNat symbol), bits)
  else if symbol = endSymbol then return (.endOfBlock, bits)
  else
    let (length, bits) ← readExtended lengthSymbols (symbol - 257) bits
    let (symbol, bits) ← distances.read bits
    let (distance, bits) ← readExtended distanceSymbols symbol bits
    return (.repetition length distance, bits)

/-! ### Blocks

Reading a block adds to the bytes that were read before, and gives the bits behind the block or else
the reason why there are none. -/

/-- Reads the items of a block up to its end. -/
def readItems (literals distances : PrefixCode) :
    Nat → List Bool → Array UInt8 → Array UInt8 × Except Stop (List Bool)
  | 0, _, out => (out, .error .ended)
  | fuel + 1, bits, out =>
    match readItem literals distances bits with
    | .error stop => (out, .error stop)
    | .ok (.endOfBlock, bits) => (out, .ok bits)
    | .ok (.byte b, bits) => readItems literals distances fuel bits (out.push b)
    | .ok (.repetition length distance, bits) =>
      if out.size < distance then (out, .error .malformed)
      else readItems literals distances fuel bits (repeatBytes distance length out)

/-- The codes of a block that describes none. -/
def fixedCodes : PrefixCode × PrefixCode :=
  (.ofLengths (.replicate 144 8 ++ .replicate 112 9 ++ .replicate 24 7 ++ .replicate 8 8),
    .ofLengths (.replicate 30 5))

/-- The order in which a block describes the code of its code lengths. -/
def lengthOrder : List Nat := [16, 17, 18, 0, 8, 7, 9, 6, 10, 5, 11, 4, 12, 3, 13, 2, 14, 1, 15]

/-- `n` numbers of three bits each. -/
def takeTriples : Nat → List Bool → Except Stop (List Nat × List Bool)
  | 0, bits => .ok ([], bits)
  | n + 1, bits => do
    let (v, bits) ← takeNumber 3 bits
    let (vs, bits) ← takeTriples n bits
    return (v :: vs, bits)

/-- The code lengths of a block, until there are `total` of them. Symbols from 16 on repeat the
length before, or length zero. -/
def readLengths (code : PrefixCode) (total : Nat) :
    Nat → List Bool → List Nat → Except Stop (List Nat × List Bool)
  | 0, _, _ => .error .ended
  | fuel + 1, bits, lengths =>
    if lengths.length = total then .ok (lengths, bits)
    else if total < lengths.length then .error .malformed
    else do
      let (symbol, bits) ← code.read bits
      if symbol < 16 then readLengths code total fuel bits (lengths ++ [symbol])
      else if symbol = 16 then
        let (more, bits) ← takeNumber 2 bits
        match lengths.getLast? with
        | none => .error .malformed
        | some last => readLengths code total fuel bits (lengths ++ .replicate (3 + more) last)
      else if symbol = 17 then
        let (more, bits) ← takeNumber 3 bits
        readLengths code total fuel bits (lengths ++ .replicate (3 + more) 0)
      else
        let (more, bits) ← takeNumber 7 bits
        readLengths code total fuel bits (lengths ++ .replicate (11 + more) 0)

/-- The codes that a block describes. -/
def readCodes (bits : List Bool) : Except Stop ((PrefixCode × PrefixCode) × List Bool) := do
  let (literals, bits) ← takeNumber 5 bits
  let (distances, bits) ← takeNumber 5 bits
  let (given, bits) ← takeNumber 4 bits
  let literals := literals + 257
  let distances := distances + 1
  if 286 < literals || 30 < distances then .error .malformed
  let (triples, bits) ← takeTriples (given + 4) bits
  let described := lengthOrder.zip triples
  let code := PrefixCode.ofLengths ((List.range 19).map fun i => (described.lookup i).getD 0)
  if !code.isComplete then .error .malformed
  let (lengths, bits) ← readLengths code (literals + distances) (bits.length + 1) bits []
  -- Without a word for it, the block could not end.
  if lengths.getD endSymbol 0 = 0 then .error .malformed
  let literalCode := PrefixCode.ofLengths (lengths.take literals)
  let distanceCode := PrefixCode.ofLengths (lengths.drop literals)
  if !literalCode.isUsable || !distanceCode.isUsable then .error .malformed
  return ((literalCode, distanceCode), bits)

/-- `n` bytes that stand in the data as they are. -/
def takeBytes : Nat → List Bool → Array UInt8 → Array UInt8 × Except Stop (List Bool)
  | 0, bits, out => (out, .ok bits)
  | n + 1, bits, out =>
    match takeNumber 8 bits with
    | .error stop => (out, .error stop)
    | .ok (b, bits) => takeBytes n bits (out.push (UInt8.ofNat b))

/-- The number of plain bytes of a block, and the bits behind it. The number stands at the next
whole byte, and its complement behind it. -/
def readSize (bits : List Bool) : Except Stop (Nat × List Bool) := do
  let (size, bits) ← takeNumber 16 (bits.drop (bits.length % 8))
  let (complement, bits) ← takeNumber 16 bits
  if size + complement = 0xffff then return (size, bits) else .error .malformed

/-- Reads one block of a kind. -/
def readBlock (kind : Nat) (bits : List Bool) (out : Array UInt8) :
    Array UInt8 × Except Stop (List Bool) :=
  match kind with
  | 0 =>
    match readSize bits with
    | .error stop => (out, .error stop)
    | .ok (size, bits) => takeBytes size bits out
  | 1 => readItems fixedCodes.1 fixedCodes.2 (bits.length + 1) bits out
  | 2 =>
    match readCodes bits with
    | .error stop => (out, .error stop)
    | .ok (codes, bits) => readItems codes.1 codes.2 (bits.length + 1) bits out
  | _ => (out, .error .malformed)

/-- Reads blocks up to the one that is marked as the last: one bit marks it, and the next two give
the kind of the block. -/
def readBlocks : Nat → List Bool → Array UInt8 → Array UInt8 × Except Stop (List Bool)
  | 0, _, out => (out, .error .ended)
  | fuel + 1, bits, out =>
    match takeNumber 3 bits with
    | .error stop => (out, .error stop)
    | .ok (mark, bits) =>
      match readBlock (mark / 2) bits out with
      | (out, .error stop) => (out, .error stop)
      | (out, .ok bits) => if mark % 2 = 1 then (out, .ok bits) else readBlocks fuel bits out

/-- The bytes that compressed data stand for, if all that is read of them is well formed. What
follows the last block is left alone. -/
def inflate (bytes : List UInt8) : Option (List UInt8) :=
  let bits := bitsOf bytes
  match readBlocks (bits.length + 1) bits #[] with
  | (_, .error .malformed) => none
  | (out, _) => some out.toList

end ProviderDiscovery.Archive.Inflate
