import ProviderDiscovery.Contract
import ProviderDiscovery.Keyed
import ProviderDiscovery.Text.Quoted

/-!
# The registry of types

Providers are listed by the names of their types. The registry knows, for each name, the
contracts that the type implements, with a factory for each.
-/

namespace ProviderDiscovery

/-- A **type of providers**: its name, and a factory for each contract that it implements. -/
structure ProviderType where
  /-- The name of the type. -/
  name : String
  /-- The factories; each contract occurs once. -/
  bindings : List (Contract × Factory)

namespace ProviderType

/-- A type that implements nothing. -/
def bare (name : String) : ProviderType := ⟨name, []⟩

/-- The factory for a contract. -/
def factory? (t : ProviderType) (c : Contract) : Option Factory := t.bindings.lookup c

/-- Whether the type implements a contract. -/
def implements (t : ProviderType) (c : Contract) : Bool := (t.factory? c).isSome

/-- The type with a factory for a contract, in place of the one before. -/
def bind (t : ProviderType) (c : Contract) (f : Factory) : ProviderType :=
  { t with bindings := Keyed.put t.bindings c f }

@[simp] theorem name_bare (name : String) : (bare name).name = name := rfl

@[simp] theorem name_bind (t : ProviderType) (c : Contract) (f : Factory) :
    (t.bind c f).name = t.name := rfl

/-- A type has the factory that was bound last. -/
theorem factory?_bind_self (t : ProviderType) (c : Contract) (f : Factory) :
    (t.bind c f).factory? c = some f :=
  Keyed.lookup_put_self ..

/-- Binding a factory for one contract leaves those for the others. -/
theorem factory?_bind_of_ne (t : ProviderType) {c d : Contract} (f : Factory) (h : d ≠ c) :
    (t.bind c f).factory? d = t.factory? d :=
  Keyed.lookup_put_of_ne _ _ h

/-- A description that counts the contracts of the type. -/
def describe (t : ProviderType) : String :=
  "ResolvedType \x7b name: " ++ Text.quote t.name ++ ", contracts: " ++
    toString t.bindings.length ++ " \x7d"

end ProviderType

/-- A **registry**: the types that are known, by name. -/
structure Registry where
  /-- The names that are known, with their types; each name occurs once. -/
  entries : List (String × ProviderType)
  /-- Each type is kept under its own name. -/
  named : ∀ entry ∈ entries, entry.2.name = entry.1

namespace Registry

/-- The registry that knows nothing. -/
def empty : Registry := ⟨[], nofun⟩

instance : EmptyCollection Registry := ⟨empty⟩

/-- The type of a name. -/
def resolve (r : Registry) (name : String) : Option ProviderType := r.entries.lookup name

/-- Whether a name is known. -/
def contains (r : Registry) (name : String) : Bool := (r.resolve name).isSome

/-- The names that are known. -/
def names (r : Registry) : List String := Keyed.keys r.entries

/-- The number of names that are known. -/
def size (r : Registry) : Nat := r.entries.length

/-- The registry with a type, in place of the one of the same name. -/
def put (r : Registry) (t : ProviderType) : Registry where
  entries := Keyed.put r.entries t.name t
  named := Keyed.forall_mem_put r.named rfl

/-- Makes a name known, if it is not, as a type that implements nothing. -/
def declare (r : Registry) (name : String) : Registry :=
  if r.contains name then r else r.put (.bare name)

/-- Gives the type of a name a factory for a contract; what else it implements stays. -/
def register (r : Registry) (name : String) (c : Contract) (f : Factory) : Registry :=
  r.put (((r.resolve name).getD (.bare name)).bind c f)

/-- Takes types over whole, one after the other. -/
def registerAll (r : Registry) (types : List ProviderType) : Registry := types.foldl put r

/-! ### Laws of the view -/

/-- A name has the type that was put in last. -/
theorem resolve_put_self (r : Registry) (t : ProviderType) : (r.put t).resolve t.name = some t :=
  Keyed.lookup_put_self ..

/-- Putting a type in leaves the types of other names. -/
theorem resolve_put_of_ne (r : Registry) {t : ProviderType} {name : String} (h : name ≠ t.name) :
    (r.put t).resolve name = r.resolve name :=
  Keyed.lookup_put_of_ne _ _ h

/-- The type of a name has that name. -/
theorem name_of_resolve {r : Registry} {name : String} {t : ProviderType}
    (h : r.resolve name = some t) : t.name = name :=
  r.named _ (Keyed.mem_of_lookup h)

end Registry

end ProviderDiscovery
