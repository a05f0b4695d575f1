/-!
# Segments of a list

A separator cuts a list into segments. The lines of a file, the components of a path and the
entries of a path list are all segments. The laws of this module are that cutting loses nothing,
that no segment holds the separator, and that the segments of two lists with a separator between
them are those of the first and then those of the second.
-/

namespace ProviderDiscovery.Text

variable {α : Type} [DecidableEq α]

/-- The segments between the separators of a list. There is always one more than there are
separators, so the empty list has one empty segment. -/
def segments (sep : α) : List α → List (List α)
  | [] => [[]]
  | x :: rest =>
    if x = sep then [] :: segments sep rest
    else match segments sep rest with
      | [] => [[x]]
      | s :: more => (x :: s) :: more

theorem segments_ne_nil (sep : α) (xs : List α) : segments sep xs ≠ [] := by
  cases xs with
  | nil => simp [segments]
  | cons x rest =>
    simp only [segments]
    split
    · simp
    · split <;> simp

/-- A separator between two lists keeps the segments of both. -/
theorem segments_append_cons (sep : α) (xs ys : List α) :
    segments sep (xs ++ sep :: ys) = segments sep xs ++ segments sep ys := by
  induction xs with
  | nil => simp [segments]
  | cons x rest ih =>
    simp only [List.cons_append, segments, ih]
    split
    · rfl
    · cases h : segments sep rest with
      | nil => exact absurd h (segments_ne_nil sep rest)
      | cons s more => rfl

/-- A list without the separator is one segment. -/
theorem segments_eq_singleton {sep : α} {xs : List α} (h : sep ∉ xs) : segments sep xs = [xs] := by
  induction xs with
  | nil => rfl
  | cons x rest ih =>
    rw [List.mem_cons, not_or] at h
    rw [segments, if_neg (Ne.symm h.1), ih h.2]

/-- Cutting loses nothing: the segments with separators between them are the list. -/
theorem intercalate_segments (sep : α) (xs : List α) :
    [sep].intercalate (segments sep xs) = xs := by
  induction xs with
  | nil => rfl
  | cons x rest ih =>
    rw [segments]
    split
    · rename_i h
      cases hs : segments sep rest with
      | nil => exact absurd hs (segments_ne_nil sep rest)
      | cons s more =>
        rw [hs] at ih
        rw [List.intercalate_cons_cons, ih, h]
        rfl
    · cases hs : segments sep rest with
      | nil => exact absurd hs (segments_ne_nil sep rest)
      | cons s more =>
        rw [hs] at ih
        cases more with
        | nil => simpa using ih
        | cons t more => simpa [List.intercalate_cons_cons] using ih

/-- No segment holds the separator. -/
theorem not_mem_of_mem_segments {sep : α} {xs s : List α} (h : s ∈ segments sep xs) :
    sep ∉ s := by
  induction xs generalizing s with
  | nil => simp only [segments, List.mem_singleton] at h; simp [h]
  | cons x rest ih =>
    simp only [segments] at h
    split at h
    · rcases List.mem_cons.mp h with rfl | h
      · simp
      · exact ih h
    · rename_i hx
      cases hrest : segments sep rest with
      | nil => exact absurd hrest (segments_ne_nil sep rest)
      | cons t more =>
        rw [hrest] at h
        rcases List.mem_cons.mp h with rfl | h
        · have := ih (s := t) (by simp [hrest])
          simp [Ne.symm hx, this]
        · exact ih (by simp [hrest, h])

/-- Segments that do not hold the separator can be cut out again. -/
theorem segments_intercalate {sep : α} {ss : List (List α)} (hne : ss ≠ [])
    (h : ∀ s ∈ ss, sep ∉ s) : segments sep ([sep].intercalate ss) = ss := by
  induction ss with
  | nil => exact absurd rfl hne
  | cons s rest ih =>
    have hs := segments_eq_singleton (h s List.mem_cons_self)
    cases rest with
    | nil => simpa using hs
    | cons t more =>
      rw [List.intercalate_cons_cons, List.append_assoc, List.singleton_append,
        segments_append_cons, hs, ih (List.cons_ne_nil t more) fun u hu =>
          h u (List.mem_cons_of_mem s hu)]
      rfl

end ProviderDiscovery.Text
