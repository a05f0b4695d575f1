/-!
# Keyed lists

Lists of values under keys, in the order in which the keys came in. Looking a key up finds its
first value, so a list in which no key occurs twice is a table. Putting a value in keeps such a
list a table: the value takes the place of the one before, or else the end of the list.
-/

namespace ProviderDiscovery.Keyed

variable {κ α : Type} [DecidableEq κ]

/-- The keys of a list, in order. -/
def keys (l : List (κ × α)) : List κ := l.map (·.1)

/-- The list with a value under a key, in place of the values that the key had. -/
def put (l : List (κ × α)) (k : κ) (a : α) : List (κ × α) :=
  if (l.lookup k).isSome then l.map fun e => if e.1 = k then (k, a) else e else l ++ [(k, a)]

/-- A first entry under another key does not count. -/
theorem lookup_cons_of_ne {e : κ × α} {k : κ} (h : k ≠ e.1) (l : List (κ × α)) :
    (e :: l).lookup k = l.lookup k := by
  obtain ⟨j, b⟩ := e
  have hb : (k == j) = false := by simpa using h
  rw [List.lookup_cons, hb]

/-- A first entry under the key itself is found. -/
theorem lookup_cons_of_eq {e : κ × α} {k : κ} (h : k = e.1) (l : List (κ × α)) :
    (e :: l).lookup k = some e.2 := by
  obtain ⟨j, b⟩ := e
  subst h
  exact List.lookup_cons_self

theorem lookup_singleton (j k : κ) (a : α) :
    [(k, a)].lookup j = if j = k then some a else none := by
  split
  · rename_i h
    exact lookup_cons_of_eq (e := (k, a)) h []
  · rename_i h
    exact lookup_cons_of_ne (e := (k, a)) h []

/-- A key has no value exactly when it is none of the keys. -/
theorem lookup_eq_none_iff {l : List (κ × α)} {k : κ} : l.lookup k = none ↔ k ∉ keys l := by
  induction l with
  | nil => simp [keys]
  | cons e rest ih =>
    by_cases h : k = e.1
    · simp [keys, h]
    · simpa [keys, lookup_cons_of_ne h, h] using ih

/-- A key has a value exactly when it is one of the keys. -/
theorem isSome_lookup_iff {l : List (κ × α)} {k : κ} : (l.lookup k).isSome ↔ k ∈ keys l := by
  rw [← Option.ne_none_iff_isSome, ne_eq, lookup_eq_none_iff, Decidable.not_not]

/-- In a list in which no key occurs twice each key has the value that it occurs with. -/
theorem lookup_eq_some_iff_mem {κ α : Type} [BEq κ] [LawfulBEq κ] {l : List (κ × α)}
    (h : (keys l).Nodup) {k : κ} {a : α} : l.lookup k = some a ↔ (k, a) ∈ l := by
  rw [List.lookup_eq_some_iff]
  constructor
  · rintro ⟨front, back, rfl, -⟩
    exact List.mem_append_right _ List.mem_cons_self
  · intro hmem
    obtain ⟨front, back, rfl⟩ := List.append_of_mem hmem
    refine ⟨front, back, rfl, fun e he => ?_⟩
    rw [keys, List.map_append, List.nodup_append] at h
    have hne := h.2.2 e.1 (List.mem_map_of_mem he) k (List.mem_map_of_mem List.mem_cons_self)
    simpa using Ne.symm hne

/-- A value that a key has occurs with it. -/
theorem mem_of_lookup {l : List (κ × α)} {k : κ} {a : α} (h : l.lookup k = some a) :
    (k, a) ∈ l := by
  obtain ⟨front, back, rfl, -⟩ := List.lookup_eq_some_iff.mp h
  exact List.mem_append_right _ List.mem_cons_self

/-- What holds of all entries, and of a value that is put in, holds of all entries then. -/
theorem forall_mem_put {P : κ × α → Prop} {l : List (κ × α)} {k : κ} {a : α}
    (hl : ∀ e ∈ l, P e) (ha : P (k, a)) : ∀ e ∈ put l k a, P e := by
  unfold put
  split
  · intro e he
    obtain ⟨other, hother, rfl⟩ := List.mem_map.mp he
    split
    · exact ha
    · exact hl other hother
  · exact List.forall_mem_append.mpr ⟨hl, List.forall_mem_singleton.mpr ha⟩

/-- A key has the value that was put in last. -/
theorem lookup_put_self (l : List (κ × α)) (k : κ) (a : α) : (put l k a).lookup k = some a := by
  unfold put
  split
  · rename_i h
    induction l with
    | nil => simp at h
    | cons e rest ih =>
      by_cases hk : k = e.1
      · rw [List.map_cons, if_pos hk.symm, lookup_cons_of_eq (e := (k, a)) rfl]
      · rw [lookup_cons_of_ne hk] at h
        rw [List.map_cons, if_neg (Ne.symm hk), lookup_cons_of_ne hk, ih h]
  · rename_i h
    rw [List.lookup_append, Option.not_isSome_iff_eq_none.mp h]
    simp

/-- Putting a value in under one key leaves the values of the others. -/
theorem lookup_put_of_ne (l : List (κ × α)) {j k : κ} (a : α) (h : j ≠ k) :
    (put l k a).lookup j = l.lookup j := by
  have map_eq : ∀ l : List (κ × α),
      (l.map fun e => if e.1 = k then (k, a) else e).lookup j = l.lookup j := by
    intro l
    induction l with
    | nil => rfl
    | cons e rest ih =>
      rw [List.map_cons]
      by_cases hk : e.1 = k
      · rw [if_pos hk, lookup_cons_of_ne (e := (k, a)) h, lookup_cons_of_ne (hk ▸ h), ih]
      · rw [if_neg hk]
        by_cases hj : j = e.1
        · rw [lookup_cons_of_eq hj, lookup_cons_of_eq hj]
        · rw [lookup_cons_of_ne hj, lookup_cons_of_ne hj, ih]
  unfold put
  split
  · exact map_eq l
  · rw [List.lookup_append, lookup_cons_of_ne (e := (k, a)) h]
    simp

/-- A new key comes in at the end; the order of the others does not change. -/
theorem keys_put (l : List (κ × α)) (k : κ) (a : α) :
    keys (put l k a) = if k ∈ keys l then keys l else keys l ++ [k] := by
  unfold put
  simp only [isSome_lookup_iff]
  split
  · simp only [keys, List.map_map]
    refine List.map_congr_left fun e _ => ?_
    by_cases h : e.1 = k <;> simp [h]
  · simp [keys]

/-- Putting a value in leaves no key twice. -/
theorem nodup_keys_put {l : List (κ × α)} (k : κ) (a : α) (h : (keys l).Nodup) :
    (keys (put l k a)).Nodup := by
  rw [keys_put]
  split
  · exact h
  · rename_i hk
    rw [List.nodup_append]
    refine ⟨h, by simp, fun x hx y hy => ?_⟩
    rw [List.mem_singleton.mp hy]
    rintro rfl
    exact hk hx

end ProviderDiscovery.Keyed
