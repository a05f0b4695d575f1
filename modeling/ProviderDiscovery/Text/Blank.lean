import ProviderDiscovery.Text.CharClass

/-!
# Blank characters

The characters with the Unicode property `White_Space`. They separate nothing in a configuration
line: they are dropped at its ends and forbidden inside it.
-/

namespace ProviderDiscovery.Text

/-- The code points with the Unicode property `White_Space`. -/
def blank : CharClass := ⟨[
  (0x9, 0xd), (0x20, 0x20), (0x85, 0x85), (0xa0, 0xa0), (0x1680, 0x1680), (0x2000, 0x200a),
  (0x2028, 0x2029), (0x202f, 0x202f), (0x205f, 0x205f), (0x3000, 0x3000)]⟩

/-- Whether a character is white space. -/
def isBlank (c : Char) : Bool := blank.contains c

/-- A text without the blanks at its two ends. -/
def trim (s : List Char) : List Char :=
  ((s.dropWhile isBlank).reverse.dropWhile isBlank).reverse

/-- Dropping the blanks at the front leaves nothing only of a text of blanks. -/
theorem dropWhile_isBlank_eq_nil_iff {s : List Char} :
    s.dropWhile isBlank = [] ↔ ∀ c ∈ s, isBlank c := by
  induction s with
  | nil => simp
  | cons c rest ih => by_cases h : isBlank c <;> simp [h, ih]

/-- Trimming leaves nothing only of a text of blanks. -/
theorem trim_eq_nil_iff {s : List Char} : trim s = [] ↔ ∀ c ∈ s, isBlank c := by
  have key : ∀ t : List Char, (∀ c ∈ t.dropWhile isBlank, isBlank c) ↔ ∀ c ∈ t, isBlank c := by
    intro t
    induction t with
    | nil => simp
    | cons c rest ih => by_cases h : isBlank c <;> simp [h, ih]
  rw [trim, List.reverse_eq_nil_iff, dropWhile_isBlank_eq_nil_iff]
  simpa using key s

end ProviderDiscovery.Text
