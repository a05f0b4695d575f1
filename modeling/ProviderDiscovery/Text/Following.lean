import ProviderDiscovery.Text.CharWidth
import ProviderDiscovery.Text.Emoji

/-!
# Sequences of characters with a width of their own

Some characters that stand together take other columns than they take alone: the parts of an emoji
sequence, of a ligature, of a stacked letter or of a line end. A text is measured from its end, so
that what a sequence ends with is known when its first character comes: `Following` says what the
text after a character starts with, `alone` what a character is by itself, and `join?` what it is
in front of what follows.
-/

namespace ProviderDiscovery.Text

/-- What a text starts with, as far as the character before it has to know. -/
inductive Following where
  /-- Nothing that matters. -/
  | plain
  /-- A line feed. -/
  | lineFeed
  /-- An emoji. -/
  | emoji
  /-- A modifier. -/
  | modifier
  /-- One regional indicator. -/
  | region
  /-- More than one regional indicator. -/
  | regions
  /-- A joiner before an emoji. -/
  | joiner
  /-- A keycap before a joiner and an emoji. -/
  | keycap
  /-- One regional indicator before a joiner and an emoji. -/
  | joinedRegion
  /-- An even number of regional indicators before a joiner and an emoji. -/
  | evenRegions
  /-- An odd number of regional indicators, more than one, before a joiner and an emoji. -/
  | oddRegions
  /-- The letters that a tag ends with, before its end, a joiner and an emoji. -/
  | tagLetters (n : Nat)
  /-- The digits that such a tag has before these letters. -/
  | tagDigits (n : Nat)
  /-- The Kirat Rai vowel sign e. -/
  | vowelE
  /-- The Kirat Rai vowel sign ai, in one character or in two. -/
  | vowelAi
  /-- An Arabic alef. -/
  | alef
  /-- A Hebrew lamed, perhaps behind a joiner. -/
  | lamed (joined : Bool)
  /-- A Buginese ya, perhaps behind a joiner. -/
  | ya (joined : Bool)
  /-- The Buginese vowel sign i before a joiner and a ya. -/
  | vowelYa
  /-- A Tifinagh consonant, perhaps behind a joiner. -/
  | tifinagh (joined : Bool)
  /-- The Tifinagh consonant joiner before a consonant. -/
  | tifinaghJoiner
  /-- A Lisu tone letter that ends a pair. -/
  | toneLetter
  /-- An Old Turkic i, perhaps behind a joiner. -/
  | orkhonI (joined : Bool)
  /-- A Khmer letter that can be written below another. -/
  | coengLetter
  deriving DecidableEq

/-! ### Classes of letters -/

/-- The Arabic letters alef. -/
def alefs : CharClass := ⟨[
  (0x622, 0x623), (0x625, 0x625), (0x627, 0x627), (0x671, 0x673), (0x675, 0x675), (0x773, 0x774),
  (0x870, 0x882)]⟩

/-- The Arabic letters lam. -/
def lams : CharClass := ⟨[
  (0x644, 0x644), (0x6b5, 0x6b8), (0x76a, 0x76a), (0x8a6, 0x8a6), (0x8c7, 0x8c7)]⟩

/-- The Khmer letters that can be written below another. -/
def coengLetters : CharClass := ⟨[
  (0x1780, 0x1782), (0x1784, 0x1787), (0x1789, 0x178c), (0x178e, 0x1793), (0x1795, 0x1798),
  (0x179b, 0x179d), (0x17a0, 0x17a0), (0x17a2, 0x17a2), (0x17a7, 0x17a7), (0x17ab, 0x17ac),
  (0x17af, 0x17af)]⟩

/-- The Tifinagh consonants. -/
def tifinaghConsonants : CharClass := ⟨[(0x2d31, 0x2d65), (0x2d6f, 0x2d6f)]⟩

/-- The Lisu tone letters that start a pair. -/
def firstTones : CharClass := ⟨[(0xa4f8, 0xa4fb)]⟩

/-- The Lisu tone letters that end a pair. -/
def secondTones : CharClass := ⟨[(0xa4fc, 0xa4fd)]⟩

/-- The marks that show nothing. -/
def blankMarks : CharClass := ⟨[
  (0x34f, 0x34f), (0x17b4, 0x17b5), (0x180b, 0x180d), (0x180f, 0x180f), (0xfe00, 0xfe0f),
  (0xe0100, 0xe01ef)]⟩

/-- The characters without a column of their own that Arabic letters do not join across. -/
def dividers : CharClass := ⟨[
  (0x605, 0x605), (0x890, 0x891), (0x8e2, 0x8e2), (0x9be, 0x9be), (0x9d7, 0x9d7), (0xb3e, 0xb3e),
  (0xb57, 0xb57), (0xbbe, 0xbbe), (0xbd7, 0xbd7), (0xcc0, 0xcc0), (0xcc2, 0xcc2), (0xcc7, 0xcc8),
  (0xcca, 0xccb), (0xcd5, 0xcd6), (0xd3e, 0xd3e), (0xd4e, 0xd4e), (0xd57, 0xd57), (0xdcf, 0xdcf),
  (0xddf, 0xddf), (0x1160, 0x11ff), (0x1715, 0x1715), (0x1734, 0x1734), (0x180e, 0x180e),
  (0x1b35, 0x1b35), (0x1b3b, 0x1b3b), (0x1b3d, 0x1b3d), (0x1b43, 0x1b44), (0x1baa, 0x1baa),
  (0x1bf2, 0x1bf3), (0x200c, 0x200d), (0x2065, 0x2069), (0x302e, 0x302f), (0x3164, 0x3164),
  (0xa8fa, 0xa8fa), (0xa953, 0xa953), (0xa9c0, 0xa9c0), (0xd7b0, 0xd7c6), (0xd7cb, 0xd7fb),
  (0xffa0, 0xffa0), (0xfff0, 0xfff8), (0x111c0, 0x111c0), (0x111c2, 0x111c3), (0x11235, 0x11235),
  (0x1133e, 0x1133e), (0x1134d, 0x1134d), (0x11357, 0x11357), (0x113b8, 0x113b8),
  (0x113c2, 0x113c2), (0x113c5, 0x113c5), (0x113c7, 0x113c9), (0x113cf, 0x113cf),
  (0x113d1, 0x113d1), (0x114b0, 0x114b0), (0x114bd, 0x114bd), (0x115af, 0x115af),
  (0x116b6, 0x116b6), (0x11930, 0x11930), (0x1193d, 0x1193d), (0x1193f, 0x1193f),
  (0x11941, 0x11941), (0x11a84, 0x11a89), (0x11d46, 0x11d46), (0x11df0, 0x11df0),
  (0x11f02, 0x11f02), (0x11f41, 0x11f41), (0x16ff0, 0x16ff1), (0x1d165, 0x1d166),
  (0x1d16d, 0x1d172), (0xe0000, 0xe0000), (0xe0002, 0xe001f), (0xe0080, 0xe00ff),
  (0xe01f0, 0xe0fff)]⟩

/-- Whether Arabic letters join across a character. -/
def isTransparent (c : Char) : Bool := zeroWidth.contains c && !dividers.contains c

/-- The character that joins what stands on both sides of it. -/
def zeroWidthJoiner : Char := '\u200d'

namespace Following

/-- Whether a character that follows is part of a ligature. -/
def isLigature : Following → Bool
  | .alef | .lamed _ | .ya _ | .vowelYa | .tifinagh _ | .tifinaghJoiner | .toneLetter | .orkhonI _
  | .coengLetter => true
  | _ => false

/-- Whether joiners and marks that show nothing may stand inside the ligature. -/
def isLoose (next : Following) : Bool := next.isLigature && next != .alef

/-- Whether an emoji form may stand before what follows and be part of the same emoji. -/
def isJoiner (next : Following) : Bool := next = .joiner || next = .keycap

/-- What follows a joiner inside a ligature. -/
def behindJoiner : Following → Following
  | .lamed _ => .lamed true
  | .ya _ => .ya true
  | .tifinagh _ => .tifinagh true
  | .orkhonI _ => .orkhonI true
  | next => next

/-- A character by itself: its columns, and what it is to the character before it. -/
def alone (c : Char) : Nat × Following :=
  let next :=
    if isRegion c then .region
    else if isModifier c then .modifier
    else if isEmoji c then .emoji
    else if alefs.contains c then .alef
    else if coengLetters.contains c then .coengLetter
    else if tifinaghConsonants.contains c then .tifinagh false
    else if secondTones.contains c then .toneLetter
    else match c.toNat with
      | 0x5dc => .lamed false
      | 0x1a10 => .ya false
      | 0x10c03 => .orkhonI false
      | 0x16d67 => .vowelE
      | 0x16d68 => .vowelAi
      | _ => .plain
  (charWidth c, next)

/-- A character in front of an emoji or of a part of one: the columns that it adds, and what it is
together with what follows. -/
def joinEmoji? (next : Following) (c : Char) : Option (Int × Following) :=
  match next with
  | .emoji => if c = zeroWidthJoiner then some (0, .joiner) else none
  | .modifier =>
    if isModifiable c then some (0, .emoji)
    else if c = zeroWidthJoiner then some (0, .joiner)
    else none
  | .region => if isRegion c then some (1, .regions) else none
  | .regions =>
    if isRegion c then some (1, .regions)
    else if c = zeroWidthJoiner then some (0, .joiner)
    else none
  | .joiner =>
    if c.toNat = 0x20e3 then some (0, .keycap)
    else if isRegion c then some (1, .joinedRegion)
    else if isModifier c then some (0, .modifier)
    else if c.toNat = 0xe007f then some (0, .tagLetters 0)
    else if isEmoji c then some (0, .emoji)
    else none
  | .joinedRegion => if isRegion c then some (-1, .evenRegions) else none
  | .evenRegions =>
    if isRegion c then some (3, .oddRegions)
    else if c = zeroWidthJoiner then some (0, .joiner)
    else none
  | .oddRegions =>
    if isRegion c then some (-1, .evenRegions)
    else if c = zeroWidthJoiner then some (0, .joiner)
    else none
  | .tagLetters n =>
    if isTagLetter c && n < 6 then some (0, .tagLetters (n + 1))
    else if isTagDigit c && n < 5 then some (0, .tagDigits 1)
    else if c.toNat = 0x1f3f4 && 3 ≤ n then some (0, .emoji)
    else none
  | .tagDigits n =>
    if isTagDigit c && n < 3 then some (0, .tagDigits (n + 1))
    else if c.toNat = 0x1f3f4 && n = 3 then some (0, .emoji)
    else none
  | _ => none

/-- A character in front of a letter that it is written together with: the columns that it adds,
and what it is together with what follows. -/
def joinLetter? (next : Following) (c : Char) : Option (Int × Following) :=
  match next with
  | .alef =>
    if lams.contains c then some (0, .plain)
    else if isTransparent c then some (0, .alef)
    else none
  | .lamed true => if c.toNat = 0x5d0 then some (0, .plain) else none
  | .ya true => if c.toNat = 0x1a17 then some (0, .vowelYa) else none
  | .vowelYa => if c.toNat = 0x1a15 then some (0, .plain) else none
  | .tifinagh joined =>
    if c.toNat = 0x2d7f then some (1, .tifinaghJoiner)
    else if joined && tifinaghConsonants.contains c then some (0, .plain)
    else none
  | .tifinaghJoiner => if tifinaghConsonants.contains c then some (-1, .plain) else none
  | .toneLetter => if firstTones.contains c then some (0, .plain) else none
  | .orkhonI true => if c.toNat = 0x10c32 then some (0, .plain) else none
  | .coengLetter => if c.toNat = 0x17d2 then some (-1, .plain) else none
  | .vowelE =>
    match c.toNat with
    | 0x16d63 => some (0, .plain)
    | 0x16d67 => some (0, .vowelAi)
    | 0x16d68 => some (1, .vowelE)
    | 0x16d69 => some (0, .plain)
    | _ => none
  | .vowelAi => if c.toNat = 0x16d63 then some (0, .plain) else none
  | _ => none

/-- A character in front of what it forms a sequence with. -/
def join? (next : Following) (c : Char) : Option (Int × Following) :=
  (next.joinEmoji? c).or (next.joinLetter? c)

end Following

end ProviderDiscovery.Text
