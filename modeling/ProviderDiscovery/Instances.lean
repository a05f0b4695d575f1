import ProviderDiscovery.Keyed

/-!
# Instances

The instances that have been made so far, by name and in the order in which they were made. A
name keeps its first instance. The view of the table is `entries`; each operation has one law that
says what it does to that view.
-/

namespace ProviderDiscovery

/-- A table of **instances**. -/
structure Instances (α : Type) where
  /-- The names with their instances, in the order of their first insertion. -/
  entries : List (String × α)
  /-- How often the table has been cleared. -/
  generation : Nat
  /-- No name occurs twice. -/
  nodup : (Keyed.keys entries).Nodup

namespace Instances

variable {α : Type}

/-- The table that holds nothing and was never cleared. -/
def empty : Instances α := ⟨[], 0, .nil⟩

instance : EmptyCollection (Instances α) := ⟨empty⟩

instance : Inhabited (Instances α) := ⟨empty⟩

/-- The instance of a name. -/
def get? (c : Instances α) (name : String) : Option α := c.entries.lookup name

/-- Whether a name has an instance. -/
def contains (c : Instances α) (name : String) : Bool := (c.get? name).isSome

/-- The name and instance at a position. -/
def getIndex? (c : Instances α) (i : Nat) : Option (String × α) := c.entries[i]?

/-- The number of instances. -/
def size (c : Instances α) : Nat := c.entries.length

/-- Whether the table holds nothing. -/
def isEmpty (c : Instances α) : Bool := c.entries.isEmpty

/-- The names, in order. -/
def names (c : Instances α) : List String := Keyed.keys c.entries

/-- The table in which a name has an instance, and the instance that it has: the new one only if
there was none before. -/
def insert (c : Instances α) (name : String) (a : α) : α × Instances α :=
  match c.get? name with
  | some kept => (kept, c)
  | none => (a, ⟨Keyed.put c.entries name a, c.generation, Keyed.nodup_keys_put name a c.nodup⟩)

/-- The table that holds nothing, one generation later. -/
def clear (c : Instances α) : Instances α := ⟨[], c.generation + 1, .nil⟩

/-! ### Laws of the view -/

@[simp] theorem entries_empty : (empty : Instances α).entries = [] := rfl

@[simp] theorem entries_clear (c : Instances α) : c.clear.entries = [] := rfl

@[simp] theorem generation_clear (c : Instances α) : c.clear.generation = c.generation + 1 := rfl

/-- A name has an instance exactly when it is one of the names. -/
theorem contains_iff {c : Instances α} {name : String} : c.contains name ↔ name ∈ c.names :=
  Keyed.isSome_lookup_iff

/-- A name with an instance keeps it. -/
theorem insert_of_get? {c : Instances α} {name : String} {a kept : α}
    (h : c.get? name = some kept) : c.insert name a = (kept, c) := by
  simp only [insert, h]

/-- A name without an instance goes to the end. -/
theorem entries_insert_of_get?_eq_none {c : Instances α} {name : String} {a : α}
    (h : c.get? name = none) :
    (c.insert name a).1 = a ∧ (c.insert name a).2.entries = c.entries ++ [(name, a)] := by
  have hl : c.entries.lookup name = none := h
  simp only [insert, h, Keyed.put, hl]
  simp

end Instances

end ProviderDiscovery
