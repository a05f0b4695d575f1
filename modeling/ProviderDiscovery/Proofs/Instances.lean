import Mathlib.Data.List.DropRight
import Mathlib.Data.List.Induction
import ProviderDiscovery.Instances

/-!
# First instances

A table of instances keeps the first of the instances that are put into it under each name. So it is
determined by what was put into it, in order: the names are those of the list, each where it occurs
first, and each has its first instance. `Instances.KeepsFirst` says this of a table and a list, and
putting one more instance in is one more member of the list (`Instances.KeepsFirst.insert`).
-/

namespace ProviderDiscovery

/-- One more name comes in at the end, unless it is there already. -/
theorem eraseDups_concat (names : List String) (name : String) :
    (names ++ [name]).eraseDups =
      if name ∈ names then names.eraseDups else names.eraseDups ++ [name] := by
  rw [List.eraseDups_append]
  by_cases h : name ∈ names <;> simp [List.removeAll, List.eraseDups_cons, h]

namespace Instances

variable {α : Type}

/-- A table **keeps the first** instance of each name in a list, and has the names in the order in
which they occur first. -/
structure KeepsFirst (c : Instances α) (made : List (String × α)) : Prop where
  names_eq : c.names = (made.map Prod.fst).eraseDups
  get?_eq : ∀ name, c.get? name = made.lookup name

theorem keepsFirst_empty : (empty : Instances α).KeepsFirst [] := ⟨rfl, fun _ => rfl⟩

/-- A name that has no instance gets the one that is put in. -/
theorem get?_insert (c : Instances α) (name : String) (a : α) (other : String) :
    (c.insert name a).2.get? other =
      (c.get? other).or (if other = name then some a else none) := by
  cases h : c.get? name with
  | some kept =>
    rw [insert_of_get? h]
    split
    · rename_i hother
      rw [hother, h, Option.some_or]
    · rw [Option.or_none]
  | none =>
    rw [get?, (entries_insert_of_get?_eq_none h).2, List.lookup_append, Keyed.lookup_singleton,
      get?]

theorem names_insert (c : Instances α) (name : String) (a : α) :
    (c.insert name a).2.names = if name ∈ c.names then c.names else c.names ++ [name] := by
  split
  · rename_i h
    obtain ⟨kept, hkept⟩ := Option.isSome_iff_exists.mp (contains_iff.mpr h)
    rw [insert_of_get? hkept]
  · rename_i h
    have hnone : c.get? name = none := by simpa [contains] using mt contains_iff.mp h
    rw [names, (entries_insert_of_get?_eq_none hnone).2, Keyed.keys, List.map_append]
    rfl

/-- The instance that is answered when one is put in is the one that the name has from then on. -/
theorem get?_insert_self (c : Instances α) (name : String) (a : α) :
    (c.insert name a).2.get? name = some (c.insert name a).1 := by
  rw [get?_insert, if_pos rfl]
  cases h : c.get? name with
  | some kept => rw [insert_of_get? h, Option.some_or]
  | none => rw [(entries_insert_of_get?_eq_none h).1, Option.none_or]

/-- Putting one more instance in is one more member of the list. -/
theorem KeepsFirst.insert {c : Instances α} {made : List (String × α)} (h : c.KeepsFirst made)
    (name : String) (a : α) : (c.insert name a).2.KeepsFirst (made ++ [(name, a)]) where
  names_eq := by
    have hmem : name ∈ c.names ↔ name ∈ made.map Prod.fst := by
      rw [h.names_eq, List.mem_eraseDups]
    rw [names_insert, List.map_append, List.map_singleton, eraseDups_concat, ← h.names_eq]
    simp only [hmem]
  get?_eq := fun other => by
    rw [get?_insert, h.get?_eq, List.lookup_append, Keyed.lookup_singleton]

/-! ### Positions -/

/-- Positions and names are two ways to the same instances. -/
theorem getIndex?_eq (c : Instances α) (i : Nat) :
    c.getIndex? i = c.names[i]?.bind fun name => (c.get? name).map (name, ·) := by
  rw [getIndex?, names, Keyed.keys, List.getElem?_map]
  cases h : c.entries[i]? with
  | none => rfl
  | some e =>
    have hget : c.get? e.1 = some e.2 :=
      (Keyed.lookup_eq_some_iff_mem c.nodup).mpr (List.mem_of_getElem? h)
    rw [Option.map_some, Option.bind_some, hget, Option.map_some]

/-- A name has an instance exactly when the two stand together at some position. -/
theorem get?_eq_some_iff {c : Instances α} {name : String} {a : α} :
    c.get? name = some a ↔ ∃ i, c.getIndex? i = some (name, a) :=
  (Keyed.lookup_eq_some_iff_mem c.nodup).trans List.mem_iff_getElem?

/-! ### Changes one after the other -/

/-- A **change** of a table. -/
inductive Change (α : Type) where
  /-- An instance is put in under a name. -/
  | insert (name : String) (a : α)
  /-- The table is cleared. -/
  | clear

/-- Whether a change clears the table. -/
def Change.isClear : Change α → Bool
  | .clear => true
  | .insert _ _ => false

/-- What a change puts in. -/
def Change.inserted? : Change α → Option (String × α)
  | .clear => none
  | .insert name a => some (name, a)

/-- The table after one change. -/
def apply (c : Instances α) : Change α → Instances α
  | .insert name a => (c.insert name a).2
  | .clear => c.clear

/-- The table **after** changes, one after the other. -/
def after (c : Instances α) (changes : List (Change α)) : Instances α := changes.foldl apply c

/-- What has been put in since the table was cleared last. -/
def insertedSince (changes : List (Change α)) : List (String × α) :=
  (changes.rtakeWhile (!·.isClear)).filterMap Change.inserted?

theorem insertedSince_concat_insert (changes : List (Change α)) (name : String) (a : α) :
    insertedSince (changes ++ [.insert name a]) = insertedSince changes ++ [(name, a)] := by
  rw [insertedSince, List.rtakeWhile_concat_pos _ _ _ rfl, List.filterMap_append]
  rfl

theorem insertedSince_concat_clear (changes : List (Change α)) :
    insertedSince (changes ++ [.clear]) = [] := by
  rw [insertedSince, List.rtakeWhile_concat_neg _ _ _ Bool.false_ne_true]
  rfl

theorem after_concat (c : Instances α) (changes : List (Change α)) (change : Change α) :
    c.after (changes ++ [change]) = (c.after changes).apply change :=
  List.foldl_concat ..

theorem generation_insert (c : Instances α) (name : String) (a : α) :
    (c.insert name a).2.generation = c.generation := by
  cases h : c.get? name with
  | some kept => rw [insert_of_get? h]
  | none => simp only [insert, h]

/-- A table keeps the first of what has been put in since it was cleared last. -/
theorem keepsFirst_after (changes : List (Change α)) :
    ((∅ : Instances α).after changes).KeepsFirst (insertedSince changes) := by
  -- The induction takes the last change off.
  induction changes using List.reverseRecOn with
  | nil => exact keepsFirst_empty
  | append_singleton changes change ih =>
    rw [after_concat]
    cases change with
    | insert name a =>
      rw [insertedSince_concat_insert]
      exact ih.insert name a
    | clear =>
      rw [insertedSince_concat_clear]
      exact ⟨rfl, fun _ => rfl⟩

/-- The generation is the number of clearings. -/
theorem generation_after (changes : List (Change α)) :
    ((∅ : Instances α).after changes).generation = changes.countP Change.isClear := by
  induction changes using List.reverseRecOn with
  | nil => rfl
  | append_singleton changes change ih =>
    rw [after_concat, List.countP_append]
    cases change with
    | insert name a => exact (generation_insert _ name a).trans ih
    | clear => exact congrArg (· + 1) ih

/-- **Positions enumerate the first insertions.** Change a table that is empty at first in any way,
and look at what has been put in since it was cleared last. The positions from zero up to the number
of instances hold the names, each once, in the order in which they were put in first, and each with
the first instance that was put in under it. One more insertion answers that instance, or its own
if there is none, and it is what the name has from then on. What the table has for a name, whether
it has anything, the list of names, their number and whether there are any: all of this can be read
off the positions. The generation is the number of clearings. -/
theorem positions_enumerate_insertions (changes : List (Change α)) :
    let c := (∅ : Instances α).after changes
    let made := insertedSince changes
    let names := (made.map Prod.fst).eraseDups
    (∀ i, c.getIndex? i = names[i]?.bind fun name => (made.lookup name).map (name, ·)) ∧
      (∀ i, (c.getIndex? i).isSome ↔ i < c.size) ∧
      (∀ name, c.get? name = made.lookup name) ∧
      (∀ name a, (c.insert name a).1 = (made.lookup name).getD a ∧
        (c.insert name a).2.get? name = some (c.insert name a).1) ∧
      (∀ name a, c.get? name = some a ↔ ∃ i, c.getIndex? i = some (name, a)) ∧
      (∀ name, c.contains name ↔ ∃ i a, c.getIndex? i = some (name, a)) ∧
      (c.names.Nodup ∧ ∀ i, c.names[i]? = (c.getIndex? i).map Prod.fst) ∧
      (c.isEmpty ↔ c.getIndex? 0 = none) ∧
      c.generation = changes.countP Change.isClear := by
  intro c made names
  have hfirst : c.KeepsFirst made := keepsFirst_after changes
  refine ⟨fun i => ?_, fun i => ?_, hfirst.get?_eq, fun name a => ⟨?_, c.get?_insert_self name a⟩,
    fun name a => get?_eq_some_iff, fun name => ?_, ⟨c.nodup, fun i => ?_⟩, ?_,
    generation_after changes⟩
  · rw [getIndex?_eq, hfirst.names_eq]
    simp only [hfirst.get?_eq]
    rfl
  · rw [Option.isSome_iff_ne_none, ne_eq, getIndex?, List.getElem?_eq_none_iff, Nat.not_le, size]
  · rw [← hfirst.get?_eq]
    cases h : c.get? name with
    | some kept => rw [insert_of_get? h]; rfl
    | none => exact (entries_insert_of_get?_eq_none h).1
  · rw [contains, Option.isSome_iff_exists, exists_comm]
    exact exists_congr fun a => get?_eq_some_iff
  · exact List.getElem?_map
  · rw [isEmpty, getIndex?, List.isEmpty_iff, List.getElem?_eq_none_iff, Nat.le_zero,
      List.length_eq_zero_iff]

end Instances

end ProviderDiscovery
