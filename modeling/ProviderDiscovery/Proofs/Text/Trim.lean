import Mathlib.Data.List.TakeWhile
import ProviderDiscovery.Text.Blank

/-!
# Trimming

A text is trimmed by dropping the blanks at its two ends. Nothing else is lost (`exists_trim`), no
blank is left at an end (`isTrimmed_trim`), and these two facts settle the result
(`trim_append_append`).
-/

namespace ProviderDiscovery.Text

/-- A text is **trimmed** when no blank stands at its two ends. -/
structure IsTrimmed (s : List Char) : Prop where
  first : ∀ c ∈ s.head?, isBlank c = false
  last : ∀ c ∈ s.getLast?, isBlank c = false

/-- A text without any blank is trimmed. -/
theorem isTrimmed_of_forall {s : List Char} (h : ∀ c ∈ s, isBlank c = false) : IsTrimmed s :=
  ⟨fun c hc => h c (List.mem_of_mem_head? hc), fun c hc => h c (List.mem_of_mem_getLast? hc)⟩

/-- Blanks at the front are dropped up to the first other character. -/
theorem isBlank_eq_false_of_mem_head?_dropWhile {s : List Char} {c : Char}
    (h : c ∈ (s.dropWhile isBlank).head?) : isBlank c = false := by
  have hfirst := List.head?_dropWhile_not isBlank s
  rwa [Option.mem_def.mp h] at hfirst

/-- Only blanks are dropped, and only at the two ends. -/
theorem exists_trim (s : List Char) :
    ∃ front back, s = front ++ trim s ++ back ∧ (∀ c ∈ front, isBlank c) ∧
      ∀ c ∈ back, isBlank c := by
  refine ⟨s.takeWhile isBlank, ((s.dropWhile isBlank).reverse.takeWhile isBlank).reverse, ?_,
    fun c hc => List.mem_takeWhile_imp hc,
    fun c hc => List.mem_takeWhile_imp (List.mem_reverse.mp hc)⟩
  rw [trim, List.append_assoc, ← List.reverse_append, List.takeWhile_append_dropWhile,
    List.reverse_reverse, List.takeWhile_append_dropWhile]

/-- What is left is trimmed. -/
theorem isTrimmed_trim (s : List Char) : IsTrimmed (trim s) where
  first c hc := by
    have hsplit : s.dropWhile isBlank =
        trim s ++ ((s.dropWhile isBlank).reverse.takeWhile isBlank).reverse := by
      rw [trim, ← List.reverse_append, List.takeWhile_append_dropWhile, List.reverse_reverse]
    refine isBlank_eq_false_of_mem_head?_dropWhile (s := s) ?_
    rw [hsplit, List.head?_append, Option.mem_def.mp hc]
    rfl
  last c hc := by
    rw [trim, List.getLast?_reverse] at hc
    exact isBlank_eq_false_of_mem_head?_dropWhile hc

/-- A text that starts with another character keeps its front. -/
theorem dropWhile_isBlank_append {front s : List Char} (hfront : ∀ c ∈ front, isBlank c)
    (hne : s ≠ []) (hs : ∀ c ∈ s.head?, isBlank c = false) :
    (front ++ s).dropWhile isBlank = s := by
  rw [List.dropWhile_append_of_pos hfront]
  cases s with
  | nil => exact absurd rfl hne
  | cons c rest => rw [List.dropWhile_cons, hs c rfl, if_neg Bool.false_ne_true]

/-- Blanks around a trimmed text are dropped. -/
theorem trim_append_append {front s back : List Char} (hfront : ∀ c ∈ front, isBlank c)
    (hs : IsTrimmed s) (hback : ∀ c ∈ back, isBlank c) : trim (front ++ s ++ back) = s := by
  by_cases hne : s = []
  · subst hne
    rw [trim_eq_nil_iff, List.append_nil]
    exact List.forall_mem_append.mpr ⟨hfront, hback⟩
  · have hdropFront : (front ++ s ++ back).dropWhile isBlank = s ++ back := by
      rw [List.append_assoc]
      refine dropWhile_isBlank_append hfront (List.append_ne_nil_of_left_ne_nil hne back) ?_
      rw [List.head?_append, List.head?_eq_some_head hne, Option.some_or, ← List.head?_eq_some_head]
      exact hs.first
    have hdropBack : (back.reverse ++ s.reverse).dropWhile isBlank = s.reverse := by
      refine dropWhile_isBlank_append (fun c hc => hback c (List.mem_reverse.mp hc))
        (by simpa using hne) ?_
      rw [List.head?_reverse]
      exact hs.last
    rw [trim, hdropFront, List.reverse_append, hdropBack, List.reverse_reverse]

end ProviderDiscovery.Text
