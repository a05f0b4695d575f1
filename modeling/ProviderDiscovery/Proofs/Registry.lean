import Mathlib.Data.Finset.Card
import ProviderDiscovery.Registry

/-!
# The last write wins

A registry is changed by calls that register a factory, declare a name or take types over. What it
then knows is settled name by name and contract by contract: `LastWrite` says, without the registry,
which of the calls has the last word on the factory of a name for a contract. `last_write_wins` says
that the registry goes by it, that the names it knows are those which the calls are about, and that
calls which do not concern each other may come in either order.
-/

namespace ProviderDiscovery

/-- A **call** that changes a registry. -/
inductive Registration where
  /-- Registers a factory for the type of a name and a contract. -/
  | register (name : String) (c : Contract) (f : Factory)
  /-- Declares a name. -/
  | declare (name : String)
  /-- Takes types over, one after the other. -/
  | batch (types : List ProviderType)

namespace Registration

/-- The names that a call is about. -/
def names : Registration → List String
  | .register name _ _ | .declare name => [name]
  | .batch types => types.map (·.name)

/-- The call **settles** the factory of a name for a contract, whatever it was before. -/
def Settles (name : String) (c : Contract) : Registration → Prop
  | .register other d _ => other = name ∧ d = c
  | .declare _ => False
  | .batch types => name ∈ types.map (·.name)

instance (name : String) (c : Contract) : DecidablePred (Settles name c)
  | .register other d _ => inferInstanceAs (Decidable (other = name ∧ d = c))
  | .declare _ => inferInstanceAs (Decidable False)
  | .batch types => inferInstanceAs (Decidable (name ∈ types.map (·.name)))

/-- Calls are **independent** when they are about different names, or register factories for
different contracts. -/
inductive Independent : Registration → Registration → Prop where
  | names {a b : Registration} (h : ∀ name ∈ a.names, name ∉ b.names) : Independent a b
  | contracts {c d : Contract} (name : String) (f g : Factory) (h : c ≠ d) :
      Independent (.register name c f) (.register name d g)

/-- A call settles only the factories of names that it is about. -/
theorem mem_names_of_settles {call : Registration} {name : String} {c : Contract}
    (h : call.Settles name c) : name ∈ call.names := by
  cases call with
  | register other d f => exact List.mem_singleton.mpr h.1.symm
  | declare other => exact h.elim
  | batch types => exact h

/-- No factory is settled by both of two independent calls. -/
theorem Independent.not_settles {a b : Registration} (h : Independent a b) {name : String}
    {c : Contract} (ha : a.Settles name c) : ¬b.Settles name c := by
  intro hb
  cases h with
  | names h => exact h name (mem_names_of_settles ha) (mem_names_of_settles hb)
  | contracts name f g h => exact h (ha.2.trans hb.2.symm)

end Registration

/-- The **last write** of a name and a contract among calls, and the factory that it leaves. -/
inductive LastWrite (name : String) (c : Contract) : List Registration → Option Factory → Prop where
  /-- The factory was registered. -/
  | registered (earlier later : List Registration) (f : Factory)
      (hlater : ∀ call ∈ later, ¬call.Settles name c) :
      LastWrite name c (earlier ++ .register name c f :: later) (some f)
  /-- A type of the name was taken over; the last one in the call counts. -/
  | taken (earlier later : List Registration) (front back : List ProviderType) {t : ProviderType}
      (ht : t.name = name) (hback : ∀ u ∈ back, u.name ≠ name)
      (hlater : ∀ call ∈ later, ¬call.Settles name c) :
      LastWrite name c (earlier ++ .batch (front ++ t :: back) :: later) (t.factory? c)
  /-- Nothing was written. -/
  | never {calls : List Registration} (h : ∀ call ∈ calls, ¬call.Settles name c) :
      LastWrite name c calls none

/-- A call that does not settle a factory leaves the last write of it. -/
theorem LastWrite.concat {name : String} {c : Contract} {calls : List Registration}
    {found : Option Factory} (h : LastWrite name c calls found) {call : Registration}
    (hcall : ¬call.Settles name c) : LastWrite name c (calls ++ [call]) found := by
  have hmore : ∀ {later : List Registration}, (∀ call ∈ later, ¬call.Settles name c) →
      ∀ other ∈ later ++ [call], ¬other.Settles name c := fun hlater =>
    List.forall_mem_append.mpr ⟨hlater, List.forall_mem_singleton.mpr hcall⟩
  cases h with
  | registered earlier later f hlater =>
    rw [List.append_assoc, List.cons_append]
    exact .registered earlier _ f (hmore hlater)
  | taken earlier later front back ht hback hlater =>
    rw [List.append_assoc, List.cons_append]
    exact .taken earlier _ front back ht hback (hmore hlater)
  | never h => exact .never (hmore h)

namespace Registry

/-- The registry after a call. -/
def apply (r : Registry) : Registration → Registry
  | .register name c f => r.register name c f
  | .declare name => r.declare name
  | .batch types => r.registerAll types

/-- The registry **after** calls, one after the other. -/
def after (r : Registry) (calls : List Registration) : Registry := calls.foldl apply r

/-- The factory of a name for a contract. -/
def factory? (r : Registry) (name : String) (c : Contract) : Option Factory :=
  (r.resolve name).bind (·.factory? c)

theorem after_append (r : Registry) (calls more : List Registration) :
    r.after (calls ++ more) = (r.after calls).after more :=
  List.foldl_append

theorem after_concat (r : Registry) (calls : List Registration) (call : Registration) :
    r.after (calls ++ [call]) = (r.after calls).apply call :=
  List.foldl_concat ..

/-! ### Names -/

theorem contains_iff {r : Registry} {name : String} : r.contains name ↔ name ∈ r.names := by
  rw [contains, resolve, Keyed.isSome_lookup_iff, names]

theorem names_put (r : Registry) (t : ProviderType) :
    (r.put t).names = if t.name ∈ r.names then r.names else r.names ++ [t.name] :=
  Keyed.keys_put ..

theorem mem_names_put {r : Registry} {t : ProviderType} {name : String} :
    name ∈ (r.put t).names ↔ name ∈ r.names ∨ name = t.name := by
  rw [names_put]
  split
  · rename_i h
    exact ⟨.inl, fun hname => hname.elim id fun heq => heq ▸ h⟩
  · rw [List.mem_append, List.mem_singleton]

theorem mem_names_registerAll {r : Registry} {types : List ProviderType} {name : String} :
    name ∈ (r.registerAll types).names ↔ name ∈ r.names ∨ name ∈ types.map (·.name) := by
  induction types generalizing r with
  | nil => simp [registerAll]
  | cons t rest ih =>
    have hrest : (r.registerAll (t :: rest)) = (r.put t).registerAll rest := rfl
    rw [hrest, ih, mem_names_put, List.map_cons, List.mem_cons, or_assoc]

/-- The type that a factory is registered for has the name that was given. -/
theorem name_getD_bare (r : Registry) (name : String) :
    ((r.resolve name).getD (.bare name)).name = name := by
  cases h : r.resolve name with
  | none => rfl
  | some t => exact name_of_resolve h

/-- A call makes the names known that it is about, and forgets none. -/
theorem mem_names_apply {r : Registry} {call : Registration} {name : String} :
    name ∈ (r.apply call).names ↔ name ∈ r.names ∨ name ∈ call.names := by
  cases call with
  | register other c f =>
    rw [apply, register, mem_names_put, ProviderType.name_bind, name_getD_bare, Registration.names,
      List.mem_singleton]
  | declare other =>
    rw [apply, declare, Registration.names, List.mem_singleton]
    split
    · rename_i h
      exact ⟨.inl, fun hname => hname.elim id fun heq => heq ▸ contains_iff.mp h⟩
    · exact mem_names_put
  | batch types => exact mem_names_registerAll

theorem nodup_names_apply {r : Registry} (h : r.names.Nodup) (call : Registration) :
    (r.apply call).names.Nodup := by
  have hput : ∀ {r : Registry} (t : ProviderType), r.names.Nodup → (r.put t).names.Nodup :=
    fun t => Keyed.nodup_keys_put t.name t
  cases call with
  | register other c f => exact hput _ h
  | declare other =>
    rw [apply, declare]
    split
    · exact h
    · exact hput _ h
  | batch types =>
    rw [apply]
    induction types generalizing r with
    | nil => exact h
    | cons t rest ih => exact ih (hput t h)

/-- The names that are known are those which the calls are about. -/
theorem mem_names_after {calls : List Registration} {name : String} :
    name ∈ ((∅ : Registry).after calls).names ↔ ∃ call ∈ calls, name ∈ call.names := by
  induction calls using List.reverseRecOn with
  | nil => exact ⟨fun h => absurd h List.not_mem_nil, fun ⟨_, h, _⟩ => absurd h List.not_mem_nil⟩
  | append_singleton calls call ih =>
    rw [after_concat, mem_names_apply, ih]
    simp only [List.mem_append, List.mem_singleton, or_and_right, exists_or, exists_eq_left]

theorem nodup_names_after (calls : List Registration) :
    ((∅ : Registry).after calls).names.Nodup := by
  induction calls using List.reverseRecOn with
  | nil => exact List.nodup_nil
  | append_singleton calls call ih =>
    rw [after_concat]
    exact nodup_names_apply ih call

/-- The registry has as many names as the calls are about, each counted once. -/
theorem size_after (calls : List Registration) :
    ((∅ : Registry).after calls).size = (calls.flatMap Registration.names).toFinset.card := by
  have hsize : ((∅ : Registry).after calls).size = ((∅ : Registry).after calls).names.length :=
    (List.length_map _).symm
  rw [hsize, ← List.toFinset_card_of_nodup (nodup_names_after calls)]
  congr 1
  ext name
  rw [List.mem_toFinset, List.mem_toFinset, mem_names_after, List.mem_flatMap]

/-! ### Factories -/

theorem factory?_put_self (r : Registry) (t : ProviderType) (c : Contract) :
    (r.put t).factory? t.name c = t.factory? c := by
  rw [factory?, resolve_put_self, Option.bind_some]

theorem factory?_put_of_ne (r : Registry) {t : ProviderType} {name : String} (h : name ≠ t.name)
    (c : Contract) : (r.put t).factory? name c = r.factory? name c := by
  rw [factory?, resolve_put_of_ne r h, factory?]

/-- A type that is to get a factory has those of the registry. -/
theorem factory?_getD_bare (r : Registry) (name : String) (c : Contract) :
    ((r.resolve name).getD (.bare name)).factory? c = r.factory? name c := by
  rw [factory?]
  cases r.resolve name <;> rfl

theorem factory?_register_self (r : Registry) (name : String) (c : Contract) (f : Factory) :
    (r.register name c f).factory? name c = some f := by
  have hput := factory?_put_self r (((r.resolve name).getD (.bare name)).bind c f) c
  rwa [ProviderType.factory?_bind_self, ProviderType.name_bind, name_getD_bare] at hput

theorem factory?_register_of_ne (r : Registry) {name other : String} {c d : Contract} (f : Factory)
    (h : ¬(other = name ∧ d = c)) : (r.register other d f).factory? name c = r.factory? name c := by
  by_cases hname : name = other
  · obtain rfl := hname
    have hput := factory?_put_self r (((r.resolve name).getD (.bare name)).bind d f) c
    rwa [ProviderType.factory?_bind_of_ne _ f fun hc => h ⟨rfl, hc.symm⟩, factory?_getD_bare,
      ProviderType.name_bind, name_getD_bare] at hput
  · exact factory?_put_of_ne r (by rwa [ProviderType.name_bind, name_getD_bare]) c

/-- Declaring a name changes no factory, and no type that is known. -/
theorem factory?_declare (r : Registry) (name other : String) (c : Contract) :
    (r.declare other).factory? name c = r.factory? name c := by
  rw [declare]
  split
  · rfl
  · rename_i h
    by_cases hname : name = other
    · obtain rfl := hname
      have hnone : r.resolve name = none := by simpa [contains] using h
      have hput := factory?_put_self r (.bare name) c
      rw [ProviderType.name_bare] at hput
      rw [hput, factory?, hnone]
      rfl
    · exact factory?_put_of_ne r hname c

theorem resolve_declare_of_some {r : Registry} {name : String} {t : ProviderType}
    (h : r.resolve name = some t) (other : String) : (r.declare other).resolve name = some t := by
  rw [declare]
  split
  · exact h
  · rename_i hother
    have hname : name ≠ other := by
      rintro rfl
      exact hother (by rw [contains, h, Option.isSome_some])
    rw [resolve_put_of_ne r (t := .bare other) hname, h]

/-- Types of other names leave a factory. -/
theorem factory?_registerAll_of_notMem (r : Registry) {types : List ProviderType} {name : String}
    (h : ∀ t ∈ types, t.name ≠ name) (c : Contract) :
    (r.registerAll types).factory? name c = r.factory? name c := by
  induction types generalizing r with
  | nil => rfl
  | cons t rest ih =>
    obtain ⟨ht, hrest⟩ := List.forall_mem_cons.mp h
    exact (ih (r.put t) hrest).trans (factory?_put_of_ne r ht.symm c)

/-- The last type of a name that is taken over gives its factories. -/
theorem factory?_registerAll_of_last (r : Registry) (front : List ProviderType) (t : ProviderType)
    {back : List ProviderType} (h : ∀ u ∈ back, u.name ≠ t.name) (c : Contract) :
    (r.registerAll (front ++ t :: back)).factory? t.name c = t.factory? c := by
  have hback : r.registerAll (front ++ t :: back) =
      ((r.registerAll front).put t).registerAll back := by
    simp [registerAll]
  rw [hback, factory?_registerAll_of_notMem _ h, factory?_put_self]

/-- A call leaves the factories that it does not settle. -/
theorem factory?_apply_of_not_settles {call : Registration} {name : String} {c : Contract}
    (h : ¬call.Settles name c) (r : Registry) :
    (r.apply call).factory? name c = r.factory? name c := by
  cases call with
  | register other d f => exact factory?_register_of_ne r f h
  | declare other => exact factory?_declare r name other c
  | batch types =>
    exact factory?_registerAll_of_notMem r (fun t ht hname => h (List.mem_map.mpr ⟨t, ht, hname⟩)) c

theorem factory?_after_of_not_settles {calls : List Registration} {name : String} {c : Contract}
    (h : ∀ call ∈ calls, ¬call.Settles name c) (r : Registry) :
    (r.after calls).factory? name c = r.factory? name c := by
  induction calls generalizing r with
  | nil => rfl
  | cons call rest ih =>
    obtain ⟨hcall, hrest⟩ := List.forall_mem_cons.mp h
    exact (ih hrest (r.apply call)).trans (factory?_apply_of_not_settles hcall r)

/-- A type among others has a last one of its name. -/
theorem exists_last_of_mem {types : List ProviderType} {name : String}
    (h : name ∈ types.map (·.name)) :
    ∃ front t back, types = front ++ t :: back ∧ t.name = name ∧ ∀ u ∈ back, u.name ≠ name := by
  induction types with
  | nil => cases h
  | cons t rest ih =>
    by_cases hrest : name ∈ rest.map (·.name)
    · obtain ⟨front, u, back, rfl, hu, hback⟩ := ih hrest
      exact ⟨t :: front, u, back, rfl, hu, hback⟩
    · obtain rfl := (List.mem_cons.mp h).resolve_right hrest
      exact ⟨[], t, rest, rfl, rfl, fun u hu hname => hrest (List.mem_map.mpr ⟨u, hu, hname⟩)⟩

/-- A call settles a factory alike, whatever registry it finds. -/
theorem factory?_apply_of_settles {call : Registration} {name : String} {c : Contract}
    (h : call.Settles name c) (r s : Registry) :
    (r.apply call).factory? name c = (s.apply call).factory? name c := by
  cases call with
  | register other d f =>
    obtain ⟨rfl, rfl⟩ := h
    exact (factory?_register_self r ..).trans (factory?_register_self s ..).symm
  | declare other => exact h.elim
  | batch types =>
    obtain ⟨front, t, back, rfl, rfl, hback⟩ := exists_last_of_mem h
    exact (factory?_registerAll_of_last r front t hback c).trans
      (factory?_registerAll_of_last s front t hback c).symm

/-- What the calls do to a factory depends on nothing but what it was. -/
theorem factory?_after_congr (calls : List Registration) {name : String} {c : Contract}
    {r s : Registry} (h : r.factory? name c = s.factory? name c) :
    (r.after calls).factory? name c = (s.after calls).factory? name c := by
  induction calls generalizing r s with
  | nil => exact h
  | cons call rest ih =>
    refine ih (r := r.apply call) (s := s.apply call) ?_
    by_cases hcall : call.Settles name c
    · exact factory?_apply_of_settles hcall r s
    · rw [factory?_apply_of_not_settles hcall, factory?_apply_of_not_settles hcall, h]

/-- Two independent calls leave the same factories in either order. -/
theorem factory?_apply_apply {a b : Registration} (h : a.Independent b) (r : Registry)
    (name : String) (c : Contract) :
    ((r.apply a).apply b).factory? name c = ((r.apply b).apply a).factory? name c := by
  by_cases ha : a.Settles name c
  · rw [factory?_apply_of_not_settles (h.not_settles ha)]
    exact factory?_apply_of_settles ha ..
  · rw [factory?_apply_of_not_settles ha (r.apply b)]
    by_cases hb : b.Settles name c
    · exact factory?_apply_of_settles hb ..
    · rw [factory?_apply_of_not_settles hb, factory?_apply_of_not_settles hb,
        factory?_apply_of_not_settles ha]

/-- The last write gives the factory that the registry has after the calls. -/
theorem factory?_after_of_lastWrite {name : String} {c : Contract} {calls : List Registration}
    {found : Option Factory} (h : LastWrite name c calls found) :
    ((∅ : Registry).after calls).factory? name c = found := by
  cases h with
  | registered earlier later f hlater =>
    rw [List.append_cons, after_append, factory?_after_of_not_settles hlater, after_concat]
    exact factory?_register_self ..
  | taken earlier later front back ht hback hlater =>
    obtain rfl := ht
    rw [List.append_cons, after_append, factory?_after_of_not_settles hlater, after_concat]
    exact factory?_registerAll_of_last _ front _ hback c
  | never h => exact factory?_after_of_not_settles h ∅

/-- Each name and contract has a last write. -/
theorem lastWrite_after (calls : List Registration) (name : String) (c : Contract) :
    LastWrite name c calls (((∅ : Registry).after calls).factory? name c) := by
  -- The induction takes the last call off, which is the last write or leaves the one before.
  induction calls using List.reverseRecOn with
  | nil => exact .never (by simp)
  | append_singleton calls call ih =>
    have hnone : ∀ other ∈ ([] : List Registration), ¬other.Settles name c := by simp
    rw [after_concat]
    by_cases hcall : call.Settles name c
    · cases call with
      | register other d f =>
        obtain ⟨rfl, rfl⟩ := hcall
        rw [apply, factory?_register_self]
        exact .registered calls [] f hnone
      | declare other => exact hcall.elim
      | batch types =>
        obtain ⟨front, t, back, rfl, rfl, hback⟩ := exists_last_of_mem hcall
        rw [apply, factory?_registerAll_of_last _ front t hback]
        exact .taken calls [] front back rfl hback hnone
    · rw [factory?_apply_of_not_settles hcall]
      exact ih.concat hcall

/-! ### Registries as seen by their users -/

/-- Two registries are **alike**: they know the same names, as many of them, and give each name the
same factories. -/
structure Alike (r s : Registry) : Prop where
  resolves : ∀ name, (r.resolve name).isSome = (s.resolve name).isSome
  factory? : ∀ name c, r.factory? name c = s.factory? name c
  size : r.size = s.size

/-- **The last write wins.** Whatever calls an empty registry has had, it knows the names that they
are about and no others, each once, and gives a name a type of that name. The factory of the type
for a contract is the one of the last write, so it is the one that was registered last, unless a
type of the name was taken over later, and then the one of that type. A declaration changes no type
that is known. And two calls, one after the other, may change places when they are about different
names, or register factories for different contracts. -/
theorem last_write_wins (calls : List Registration) :
    let r := (∅ : Registry).after calls
    (∀ name, (∃ t, r.resolve name = some t) ↔ ∃ call ∈ calls, name ∈ call.names) ∧
    (∀ name t, r.resolve name = some t → t.name = name) ∧
    (∀ name c found, (r.resolve name).bind (·.factory? c) = found ↔
      LastWrite name c calls found) ∧
    (∀ declared name t, r.resolve name = some t → (r.declare declared).resolve name = some t) ∧
    r.size = (calls.flatMap Registration.names).toFinset.card ∧
    ∀ earlier a b later, calls = earlier ++ a :: b :: later → a.Independent b →
      r.Alike ((∅ : Registry).after (earlier ++ b :: a :: later)) := by
  intro r
  have hresolves : ∀ calls name, (((∅ : Registry).after calls).resolve name).isSome ↔
      ∃ call ∈ calls, name ∈ call.names := fun calls name =>
    contains_iff.trans mem_names_after
  refine ⟨fun name => ?_, fun name t => name_of_resolve, fun name c found => ⟨?_, ?_⟩,
    fun declared name t ht => resolve_declare_of_some ht declared, size_after calls,
    fun earlier a b later hcalls hab => ?_⟩
  · rw [← hresolves calls name, Option.isSome_iff_exists]
  · rintro rfl
    exact lastWrite_after calls name c
  · exact factory?_after_of_lastWrite
  · have hswap : ∀ P : Registration → Prop,
        (∃ call ∈ earlier ++ a :: b :: later, P call) ↔
          ∃ call ∈ earlier ++ b :: a :: later, P call := fun P => by
      simp only [List.mem_append, List.mem_cons, or_left_comm (a := _ = a)]
    subst hcalls
    refine ⟨fun name => ?_, fun name c => ?_, ?_⟩
    · rw [Bool.eq_iff_iff, hresolves, hresolves, hswap]
    · show ((∅ : Registry).after _).factory? name c = _
      rw [after_append, after_append]
      exact factory?_after_congr later (factory?_apply_apply hab _ name c)
    · rw [size_after, size_after]
      congr 1
      ext name
      simp only [List.mem_toFinset, List.mem_flatMap, hswap]

/-- A type is taken over in place of what was registered for its name, and gets two factories
later, in either order. -/
theorem last_write_wins_twoContracts :
    let codec : Contract := ⟨"codec"⟩
    let sink : Contract := ⟨"sink"⟩
    let make (n : Nat) : Factory := ⟨⟨n⟩, "v", fun _ => .made⟩
    let first : List Registration :=
      [.register "A" codec (make 0), .batch [.bare "B", ⟨"A", [(codec, make 1)]⟩]]
    let onto (calls : List Registration) : Registry := (∅ : Registry).after (first ++ calls)
    let r := onto [.register "A" sink (make 2), .register "A" codec (make 3), .declare "C"]
    r.size = 3 ∧ r.resolve "A" = some ⟨"A", [(codec, make 3), (sink, make 2)]⟩ ∧
      (r.declare "A").resolve "A" = r.resolve "A" ∧
      r.Alike (onto [.register "A" codec (make 3), .register "A" sink (make 2), .declare "C"]) ∧
      LastWrite "A" codec (first ++ [.declare "A"]) (some (make 1)) := by
  intro codec sink make first onto r
  have hresolve : r.resolve "A" = some ⟨"A", [(codec, make 3), (sink, make 2)]⟩ := by rfl
  obtain ⟨-, -, -, hdeclare, hsize, hswap⟩ := last_write_wins
    (first ++ [.register "A" sink (make 2), .register "A" codec (make 3), .declare "C"])
  obtain ⟨-, -, hlast, -⟩ := last_write_wins (first ++ [.declare "A"])
  refine ⟨hsize.trans (by decide), hresolve, (hdeclare "A" "A" _ hresolve).trans hresolve.symm,
    hswap first _ _ _ rfl (.contracts "A" _ _ (by decide)), (hlast "A" codec _).mp (by rfl)⟩

end Registry

end ProviderDiscovery
