/-!
# Classes of characters

A class is given by the ranges of its code points. The tables of this folder are such classes:
one for each property of characters that names, configuration lines or printed text depend on.
-/

namespace ProviderDiscovery.Text

/-- A **class of characters**: the first and the last code point of each of its ranges, lowest
range first. -/
structure CharClass where
  /-- First and last code point of each range. -/
  ranges : List (Nat × Nat)

namespace CharClass

/-- Whether some range holds a code point. The ranges ascend, so the search ends at the first
one that starts behind it. -/
def search : List (Nat × Nat) → Nat → Bool
  | [], _ => false
  | (low, high) :: rest, n => if n < low then false else n ≤ high || search rest n

/-- Whether a character belongs to the class. -/
def contains (k : CharClass) (c : Char) : Bool := search k.ranges c.toNat

/-- What the search finds lies in one of the ranges. -/
theorem exists_range_of_search {ranges : List (Nat × Nat)} {n : Nat} (h : search ranges n) :
    ∃ r ∈ ranges, r.1 ≤ n ∧ n ≤ r.2 := by
  induction ranges with
  | nil => simp [search] at h
  | cons r rest ih =>
    obtain ⟨low, high⟩ := r
    simp only [search] at h
    split at h
    · simp at h
    · rcases Bool.or_eq_true _ _ ▸ h with hn | hrest
      · exact ⟨(low, high), List.mem_cons_self, by omega, by simpa using hn⟩
      · obtain ⟨r, hr, hle⟩ := ih hrest
        exact ⟨r, List.mem_cons_of_mem _ hr, hle⟩

/-- Whether no range of one class meets a range of another. -/
def apart (k l : CharClass) : Bool :=
  k.ranges.all fun r => l.ranges.all fun q => decide (r.2 < q.1) || decide (q.2 < r.1)

/-- Classes whose ranges do not meet have no character in common. -/
theorem contains_eq_false_of_apart {k l : CharClass} (h : k.apart l) {c : Char}
    (hc : k.contains c) : l.contains c = false := by
  rw [Bool.eq_false_iff]
  intro hl
  obtain ⟨r, hr, hrc⟩ := exists_range_of_search hc
  obtain ⟨q, hq, hqc⟩ := exists_range_of_search hl
  have hrq := List.all_eq_true.mp (List.all_eq_true.mp h r hr) q hq
  simp only [Bool.or_eq_true, decide_eq_true_eq] at hrq
  omega

end CharClass

end ProviderDiscovery.Text
