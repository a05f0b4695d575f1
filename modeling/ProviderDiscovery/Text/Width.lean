import ProviderDiscovery.Text.Following

/-!
# Width of text

How many columns of a terminal a text takes, so that the columns of a table line up. The columns
of its characters add up, except where characters form a sequence with a width of its own. A
selector settles in which form the character before it is drawn.
-/

namespace ProviderDiscovery.Text

/-- The form that a selector asks for. -/
inductive Selector where
  /-- Quotation marks as wide as ideographs. -/
  | wide
  /-- Text. -/
  | text
  /-- Emoji. -/
  | emoji
  deriving DecidableEq

/-- The selector that a character is. -/
def selector? (c : Char) : Option Selector :=
  match c with
  | '\ufe01' => some .wide
  | '\ufe0e' => some .text
  | '\ufe0f' => some .emoji
  | _ => none

/-- Whether a quotation mark has a form as wide as ideographs. -/
def hasWideForm (c : Char) : Bool := ['\u2018', '\u2019', '\u201c', '\u201d'].contains c

/-- What has been **measured** of a text, from its end. -/
structure Measured where
  /-- The columns so far. -/
  columns : Int
  /-- What the measured text starts with, behind a selector. -/
  next : Following
  /-- The selector that it starts with. -/
  selector : Option Selector

namespace Measured

/-- Nothing measured. -/
def empty : Measured := ⟨0, .plain, none⟩

/-- A character that adds columns. -/
def add (m : Measured) (columns : Int) (next : Following) : Measured :=
  ⟨m.columns + columns, next, none⟩

/-- A selector in front. Only in front of a ligature, or of a joiner that an emoji form may stand
before, does the text behind it still matter. -/
def select (m : Measured) (s : Selector) : Measured :=
  let isKept := m.next.isLigature || s = .emoji && m.next.isJoiner
  { m with next := if isKept then m.next else .plain, selector := some s }

/-- The selector has no bearing on the character before it. -/
def unselect (m : Measured) : Measured :=
  { m with next := if m.next.isLigature then m.next else .plain, selector := none }

/-- A character with a form that the selector asks for. -/
def settle? (m : Measured) (c : Char) : Option Measured :=
  match m.selector with
  | some .emoji =>
    if hasEmojiForm c then some (m.add (if m.next.isJoiner then 0 else 2) .emoji) else none
  | some .text => if hasNarrowForm c then some (m.add 1 .plain) else none
  | some .wide => if hasWideForm c then some (m.add 2 .plain) else none
  | none => none

/-- A character in front of a text that starts with no selector. -/
def put (m : Measured) (c : Char) : Measured :=
  if m.next.isLoose && c = zeroWidthJoiner then m.add 0 m.next.behindJoiner
  else if m.next.isLoose && blankMarks.contains c then m.add 0 m.next
  else
    match m.next.join? c with
    | some (columns, next) => m.add columns next
    | none => m.add (Following.alone c).1 (Following.alone c).2

/-- One more character in front. -/
def step (c : Char) (m : Measured) : Measured :=
  match m.settle? c with
  | some settled => settled
  | none =>
    let m := if m.selector.isSome then m.unselect else m
    if c = '\n' then m.add 1 .lineFeed
    else if c = '\r' && m.next = .lineFeed then m.add 0 .plain
    else if c ≤ '\u00a0' then m.add 1 .plain
    else
      match selector? c with
      | some s => m.select s
      | none => m.put c

end Measured

/-- The columns that a text takes on one line. -/
def width (s : List Char) : Nat := (s.foldr Measured.step .empty).columns.toNat

end ProviderDiscovery.Text
