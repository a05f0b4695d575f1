import ProviderDiscovery.Proofs.Level

/-!
# Steps that do not see an authority

A step that calls other parties only does not see how often an authority has been entered. Two
worlds are `Alike` but for an authority when they differ in its entrances only, and a step is
`Blind` to the authority when it answers the same and does the same in such worlds. The steps of a
search and of an acceptance are blind to each authority that is none of the parties that they call.
-/

namespace ProviderDiscovery

/-- Whether the event is an entrance of an authority. -/
def Event.enters (e : Event) (h : Handle) : Bool :=
  match e with
  | .entered authority _ => authority == h
  | _ => false

/-- An entrance is a call of the authority, and of no other party. -/
theorem Event.enters_eq_false_of_calls {e : Event} {h other : Handle} (hne : other ≠ h)
    (hcalls : e.calls other) : e.enters h = false := by
  cases e with
  | entered authority label =>
    have hauthority : authority = other := beq_iff_eq.mp hcalls
    exact beq_eq_false_iff_ne.mpr (hauthority ▸ hne)
  | _ => rfl

/-- An entrance is a call of the authority. -/
theorem Event.calls_of_enters {e : Event} {h : Handle} (henters : e.enters h) : e.calls h := by
  cases e <;> first | exact henters | cases henters

/-- No factory is called in an entrance. -/
theorem Event.enters_eq_false_of_called? {e : Event} {h : Handle} {name : String}
    (hcalled : e.called? = some name) : e.enters h = false := by
  cases e <;> first | rfl | cases hcalled

/-- The events besides the entrances of an authority. -/
def besides (h : Handle) (es : List Event) : List Event := es.filter fun e => !e.enters h

theorem besides_append (h : Handle) (es fs : List Event) :
    besides h (es ++ fs) = besides h es ++ besides h fs :=
  List.filter_append ..

theorem besides_reverse (h : Handle) (es : List Event) :
    besides h es.reverse = (besides h es).reverse :=
  List.filter_reverse

theorem calledNames_besides (h : Handle) (es : List Event) :
    calledNames (besides h es) = calledNames es := by
  have hcalled : (fun e : Event => if !e.enters h then e.called? else none) = Event.called? := by
    funext e
    cases hname : e.called? with
    | none => exact ite_self _
    | some name => rw [Event.enters_eq_false_of_called? hname]; rfl
  rw [calledNames, besides, List.filterMap_filter, hcalled, calledNames]

/-! ### Parties that are not the authority -/

/-- The factories of the type are other parties. -/
def ProviderType.Avoids (t : ProviderType) (h : Handle) : Prop :=
  ∀ contract factory, t.factory? contract = some factory → factory.handle ≠ h

/-- The factories of all types in the registry are other parties. -/
def Registry.Avoids (r : Registry) (h : Handle) : Prop :=
  ∀ name t, r.resolve name = some t → t.Avoids h

/-- The party that is asked for types is another one, and so are the factories of these types. -/
def Resolver.Avoids (r : Resolver) (h : Handle) : Prop :=
  ∀ p, r = .party p → p.handle ≠ h ∧ ∀ asked name t, p.answer asked name = some t → t.Avoids h

/-- The parties in a scope are other ones. -/
def Scope.Avoids (s : Scope) (h : Handle) : Prop :=
  ∀ p services parent, .custom p services parent ∈ s.leaves → p.handle ≠ h

/-! ### Worlds -/

/-- Worlds are **alike** but for an authority when they differ in its entrances only. -/
structure World.Alike (h : Handle) (w w' : World) : Prop where
  files : w.files = w'.files
  registry : w.registry = w'.registry
  /-- No type makes its providers through the authority. -/
  avoids : w.registry.Avoids h
  history : besides h w.history = besides h w'.history

namespace World.Alike

variable {h : Handle} {w w' : World}

protected theorem refl (havoids : w.registry.Avoids h) : w.Alike h w := ⟨rfl, rfl, havoids, rfl⟩

/-- Every other party has been called as often. -/
theorem callCount_eq (hw : w.Alike h w') {other : Handle} (hne : other ≠ h) :
    w.callCount other = w'.callCount other := by
  have hcount : ∀ es : List Event, es.countP (·.calls other) =
      (besides h es).countP (·.calls other) := fun es => by
    rw [besides, List.countP_filter]
    refine List.countP_congr fun e _ => ?_
    cases hcalls : e.calls other with
    | false => rfl
    | true => rw [Event.enters_eq_false_of_calls hne hcalls]; rfl
  rw [callCount, callCount, hcount, hw.history, ← hcount]

/-- Factories have been called as often. -/
theorem length_constructed_eq (hw : w.Alike h w') :
    w.constructed.length = w'.constructed.length := by
  rw [length_constructed, length_constructed, ← calledNames_besides h, hw.history,
    calledNames_besides]

/-- Worlds stay alike when the same is done in both, but for the authority. -/
theorem after (hw : w.Alike h w') {es es' : List Event} (hes : besides h es = besides h es') :
    (w.after es).Alike h (w'.after es') where
  files := hw.files
  registry := hw.registry
  avoids := hw.avoids
  history := by
    simp only [World.after, besides_append, besides_reverse, hes, hw.history]

end World.Alike

/-! ### Blind steps -/

/-- A step is **blind** to an authority when it answers the same and does the same in worlds that
are alike but for the authority, and does not enter it. -/
def Blind {α : Type} (h : Handle) (x : Action α) : Prop :=
  ∀ w w', w.Alike h w' → ∃ a es, x.run w = (a, w.after es) ∧ x.run w' = (a, w'.after es) ∧
    ∀ e ∈ es, e.enters h = false

protected theorem Blind.record {h : Handle} {e : Event} (he : e.enters h = false) :
    Blind h (record e) :=
  fun _ _ _ => ⟨(), [e], rfl, rfl, by simpa using he⟩

/-- Worlds that are alike but for an authority are level for all other parties. -/
theorem World.Alike.level {h : Handle} {w w' : World} (hw : w.Alike h w') :
    w.Level (· ≠ h) (·.Avoids h) w' where
  files := hw.files
  registry := hw.registry
  types := hw.avoids
  constructed := hw.length_constructed_eq
  callCount := fun _ hne => hw.callCount_eq hne

/-- A step that calls other parties only does not see the authority. -/
theorem Alongside.blind {α : Type} {h : Handle} {x : Action α}
    (hx : Even (· ≠ h) (·.Avoids h) x) : Blind h x := by
  intro w w' hw
  obtain ⟨a, _, es, hrun, hrun', rfl, hes⟩ := hx w w' hw.level
  refine ⟨a, es, hrun, hrun', fun e he => ?_⟩
  cases henters : e.enters h with
  | false => rfl
  | true => exact absurd rfl (hes e he h (Event.calls_of_enters henters))

/-- **A request for a candidate is blind** to an authority that is not among the parties of the
scope. -/
theorem Candidates.blind_next {h : Handle} (known : String → Bool) {c : Candidates}
    (hc : c.scope.Avoids h) : Blind h (c.next known) := by
  have hwithin : c.scope.Within (· ≠ h) := hc
  exact (even_next known hwithin).blind

/-- **Accepting a name is blind** to an authority that is not among the parties that are called. -/
theorem blind_accept {h : Handle} {r : Resolver} (hr : r.Avoids h) (contract : Contract)
    (capability : CapabilityId) (name : String) (c : Instances Provider) :
    Blind h (accept r contract capability name c) := by
  have hwithin : r.Within (· ≠ h) := hr
  exact (even_accept (fun _ => id) hwithin contract capability name c).blind

end ProviderDiscovery
