/-!
# UTF-8

Reading characters from bytes. The reader takes one byte at a time; between two bytes of one
character it knows how many are still owed, the bits so far and the range in which the next byte
has to lie. The ranges leave out what UTF-8 leaves out: longer forms than necessary, surrogates
and numbers behind the last code point.
-/

namespace ProviderDiscovery.Text.Utf8

/-- Where a reader stands between two bytes. -/
inductive State where
  /-- Between two characters. -/
  | start
  /-- Inside a character: one byte more than `more` is owed, the next one from `low` to `high`. -/
  | inside (more : Nat) (bits : Nat) (low high : UInt8)
  deriving DecidableEq

/-- What one byte leads to. -/
inductive Step where
  /-- The byte completes a character. -/
  | char (c : Char)
  /-- The byte belongs to a character that goes on. -/
  | continue (s : State)
  /-- No character can go on with the byte. -/
  | invalid
  deriving DecidableEq

/-- The first byte of a character. -/
def first (b : UInt8) : Step :=
  if b ≤ 0x7f then .char (Char.ofNat b.toNat)
  else if b < 0xc2 then .invalid
  else if b ≤ 0xdf then .continue (.inside 0 (b.toNat - 0xc0) 0x80 0xbf)
  else if b = 0xe0 then .continue (.inside 1 0 0xa0 0xbf)
  else if b = 0xed then .continue (.inside 1 0xd 0x80 0x9f)
  else if b ≤ 0xef then .continue (.inside 1 (b.toNat - 0xe0) 0x80 0xbf)
  else if b = 0xf0 then .continue (.inside 2 0 0x90 0xbf)
  else if b ≤ 0xf3 then .continue (.inside 2 (b.toNat - 0xf0) 0x80 0xbf)
  else if b = 0xf4 then .continue (.inside 2 4 0x80 0x8f)
  else .invalid

/-- One byte, from any state. -/
def step : State → UInt8 → Step
  | .start, b => first b
  | .inside more bits low high, b =>
    if b < low || high < b then .invalid
    else
      let bits := bits * 64 + (b.toNat - 0x80)
      match more with
      | 0 => .char (Char.ofNat bits)
      | n + 1 => .continue (.inside n bits 0x80 0xbf)

/-- The characters of a text that a reader goes on with, if the bytes complete and continue them
as UTF-8 does. -/
def decodeFrom : State → List UInt8 → Option (List Char)
  | .start, [] => some []
  | .inside .., [] => none
  | s, b :: rest =>
    match step s b with
    | .char c => (decodeFrom .start rest).map (c :: ·)
    | .continue t => decodeFrom t rest
    | .invalid => none

/-- The characters of a text, if its bytes are UTF-8. -/
def decode (bytes : List UInt8) : Option (List Char) := decodeFrom .start bytes

/-- The characters of a text that a reader goes on with, a replacement character standing for
each longest piece that no character can go on with. -/
def decodeLossyFrom : State → List UInt8 → List Char
  | .start, [] => []
  | .inside .., [] => ['\uFFFD']
  | s, b :: rest =>
    match step s b with
    | .char c => c :: decodeLossyFrom .start rest
    | .continue t => decodeLossyFrom t rest
    | .invalid =>
      if s = .start then '\uFFFD' :: decodeLossyFrom .start rest
      else match first b with
        | .char c => '\uFFFD' :: c :: decodeLossyFrom .start rest
        | .continue t => '\uFFFD' :: decodeLossyFrom t rest
        | .invalid => '\uFFFD' :: '\uFFFD' :: decodeLossyFrom .start rest

/-- The characters of any bytes, with replacement characters where they are not UTF-8. -/
def decodeLossy (bytes : List UInt8) : List Char := decodeLossyFrom .start bytes

/-- The bytes of a text. -/
def encode (s : String) : List UInt8 := s.toUTF8.data.toList

end ProviderDiscovery.Text.Utf8
