import ProviderDiscovery.Name
import ProviderDiscovery.Text.Blank

/-!
# What a qualified name cannot hold

Letters, numbers, underscores, dollar signs and dots are all that a qualified name holds. So there
is no blank in it, no number sign that would start a comment, and no slash that would lead to
another folder.
-/

namespace ProviderDiscovery

open Text

/-! ### Single characters -/

/-- An identifier part is no blank. The tables of letters and numbers are apart from that of
blanks. -/
theorem isBlank_eq_false_of_isIdentifierPart {c : Char} (h : isIdentifierPart c) :
    isBlank c = false := by
  have halphabetic : alphabetic.apart blank := by decide +kernel
  have hnumeric : numeric.apart blank := by decide +kernel
  simp only [isIdentifierPart, isIdentifierStart, Bool.or_eq_true, beq_iff_eq] at h
  rcases h with ((h | rfl) | rfl) | h
  · exact CharClass.contains_eq_false_of_apart halphabetic h
  · rfl
  · rfl
  · exact CharClass.contains_eq_false_of_apart hnumeric h

/-! ### Whole names -/

variable {name : List Char}

theorem isQualified_ne_nil (h : isQualified name) : name ≠ [] := by
  rintro rfl
  cases h

/-- All characters of a qualified name are identifier parts or dots. -/
theorem isIdentifierPart_or_dot_of_mem (h : isQualified name) {c : Char} (hc : c ∈ name) :
    isIdentifierPart c ∨ c = '.' := by
  cases name with
  | nil => cases hc
  | cons first rest =>
    obtain ⟨hfirst, hrest⟩ := Bool.and_eq_true_iff.mp h
    rcases List.mem_cons.mp hc with rfl | hc
    · exact .inl (Bool.or_eq_true_iff.mpr (.inl hfirst))
    · simpa using List.all_eq_true.mp hrest c hc

theorem not_mem_of_isQualified (h : isQualified name) {c : Char} (hc : isIdentifierPart c = false)
    (hdot : c ≠ '.') : c ∉ name := by
  intro hmem
  rcases isIdentifierPart_or_dot_of_mem h hmem with hpart | rfl
  · rw [hc] at hpart
    cases hpart
  · exact hdot rfl

/-- No blank stands in a qualified name. -/
theorem isBlank_eq_false_of_isQualified (h : isQualified name) {c : Char} (hc : c ∈ name) :
    isBlank c = false := by
  rcases isIdentifierPart_or_dot_of_mem h hc with hpart | rfl
  · exact isBlank_eq_false_of_isIdentifierPart hpart
  · rfl

/-- No number sign stands in a qualified name. -/
theorem numberSign_not_mem_of_isQualified (h : isQualified name) : '#' ∉ name :=
  not_mem_of_isQualified h (by decide +kernel) (by decide)

/-- No slash stands in a qualified name. -/
theorem slash_not_mem_of_isQualified (h : isQualified name) : '/' ∉ name :=
  not_mem_of_isQualified h (by decide +kernel) (by decide)

end ProviderDiscovery
