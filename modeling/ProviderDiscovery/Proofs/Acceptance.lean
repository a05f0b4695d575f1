import ProviderDiscovery.Acceptance
import ProviderDiscovery.Proofs.Events

/-!
# What accepting a name does

What becomes of a name is a **verdict**: its type is not known, the type does not implement the
contract, the factory fails, or it provides a value. The verdict is read off the registry and the
numbers of calls that the parties have had. `run_accept_eq` says that the acceptance of a name does
what the verdict says and nothing else: a failure leaves the table of instances, and a provider
that has been made is kept. Where the factories do the same on every call, each name has one
verdict.
-/

namespace ProviderDiscovery

/-! ### Verdicts -/

/-- What becomes of a name that is accepted. -/
inductive Verdict where
  /-- No type has the name. -/
  | notFound
  /-- The type does not implement the contract. -/
  | notAssignable
  /-- The factory fails with a cause. -/
  | failed (cause : String)
  /-- The factory makes a provider of a value. -/
  | provided (value : String)
  deriving DecidableEq

namespace Verdict

/-- The names whose factories are called. -/
def called (v : Verdict) (name : String) : List String :=
  match v with
  | .notFound | .notAssignable => []
  | .failed _ | .provided _ => [name]

/-- The answer to whoever wants the name accepted, when a provider gets a serial number. -/
def answer (v : Verdict) (capability : CapabilityId) (name : String) (serial : Nat) :
    Except DiscoveryError Provider :=
  match v with
  | .notFound => .error ⟨capability, .providerNotFound name⟩
  | .notAssignable => .error ⟨capability, .providerNotAssignable name⟩
  | .failed cause => .error ⟨capability, .instantiationFailed name cause⟩
  | .provided value => .ok ⟨value, serial⟩

/-- The providers that are made, by name. -/
def made (v : Verdict) (name : String) (serial : Nat) : List (String × Provider) :=
  match v with
  | .provided value => [(name, ⟨value, serial⟩)]
  | _ => []

/-- A provider that is made is kept in a table of instances, unless the name has one already. -/
def keep (v : Verdict) (capability : CapabilityId) (name : String) (serial : Nat)
    (c : Instances Provider) : Except DiscoveryError Provider × Instances Provider :=
  match v.answer capability name serial with
  | .error e => (.error e, c)
  | .ok provider => (.ok (c.insert name provider).1, (c.insert name provider).2)

/-- Who is answered a provider gets the one that was made. -/
theorem made_of_answer {v : Verdict} {capability : CapabilityId} {name : String} {serial : Nat}
    {provider : Provider} (h : v.answer capability name serial = .ok provider) :
    v.made name serial = [(name, provider)] := by
  cases v with
  | provided value =>
    obtain rfl := Except.ok.inj h
    rfl
  | notFound => cases h
  | notAssignable => cases h
  | failed cause => cases h

/-- Who is answered a failure gets none. -/
theorem made_of_answer_eq_error {v : Verdict} {capability : CapabilityId} {name : String}
    {serial : Nat} {e : DiscoveryError} (h : v.answer capability name serial = .error e) :
    v.made name serial = [] := by
  cases v with
  | provided value => cases h
  | notFound => rfl
  | notAssignable => rfl
  | failed cause => rfl

/-- Only a factory that is called makes a provider. -/
theorem map_fst_made_sublist (v : Verdict) (name : String) (serial : Nat) :
    ((v.made name serial).map Prod.fst).Sublist (v.called name) := by
  cases v <;> simp [made, called]

theorem called_sublist (v : Verdict) (name : String) : (v.called name).Sublist [name] := by
  cases v <;> simp [called]

/-- For a name without an instance, the answer is passed on and what is made is kept. -/
theorem keep_of_contains_eq_false {c : Instances Provider} {name : String}
    (h : c.contains name = false) (v : Verdict) (capability : CapabilityId) (serial : Nat) :
    (v.keep capability name serial c).1 = v.answer capability name serial ∧
      (v.keep capability name serial c).2.entries = c.entries ++ v.made name serial := by
  have hnone : c.get? name = none := by
    simpa [Instances.contains] using h
  cases v with
  | provided value =>
    obtain ⟨hkept, hentries⟩ := Instances.entries_insert_of_get?_eq_none
      (a := (⟨value, serial⟩ : Provider)) hnone
    exact ⟨congrArg Except.ok hkept, hentries⟩
  | notFound => exact ⟨rfl, (List.append_nil _).symm⟩
  | notAssignable => exact ⟨rfl, (List.append_nil _).symm⟩
  | failed cause => exact ⟨rfl, (List.append_nil _).symm⟩

end Verdict

namespace Resolver

/-- The type of a name in a registry, given the number of questions before. -/
def typeIn (r : Resolver) (registry : Registry) (asked : Nat) (name : String) :
    Option ProviderType :=
  match r with
  | .registry => registry.resolve name
  | .nothing => none
  | .party p => p.answer asked name

/-- The **verdict** on a name, given the number of questions before and the number of calls that
each factory has had. -/
def verdict (r : Resolver) (contract : Contract) (registry : Registry) (asked : Nat)
    (calls : Handle → Nat) (name : String) : Verdict :=
  match r.typeIn registry asked name with
  | none => .notFound
  | some type =>
    match type.factory? contract with
    | none => .notAssignable
    | some factory =>
      match factory.outcome (calls factory.handle) with
      | .made => .provided factory.value
      | .failed cause => .failed cause
      | .threw thrown => .failed thrown.message

/-- The number of questions that the resolver has had. -/
def asked (r : Resolver) (w : World) : Nat :=
  match r with
  | .party p => w.callCount p.handle
  | .registry | .nothing => 0

/-- What looking the type of a name up does. -/
def inquiry (r : Resolver) (name : String) : List Event :=
  match r with
  | .registry => [.resolved name]
  | .nothing => []
  | .party p => [.consulted p.handle name]

/-- The **verdict** on a name in a world. The question after its type comes before the call of its
factory. -/
def verdictIn (r : Resolver) (contract : Contract) (w : World) (name : String) : Verdict :=
  r.verdict contract w.registry (r.asked w) (w.after (r.inquiry name)).callCount name

theorem run_resolve_eq (r : Resolver) (name : String) (w : World) :
    (r.resolve name).run w = (r.typeIn w.registry (r.asked w) name, w.after (r.inquiry name)) := by
  cases r <;> rfl

theorem unseen_inquiry (r : Resolver) (name : String) : Unseen (r.inquiry name) := by
  cases r <;> exact ⟨rfl, rfl, rfl⟩

/-- Looking a type up calls no factory. -/
theorem run_resolve (r : Resolver) (name : String) (w : World) :
    ∃ asked es, (r.resolve name).run w = (r.typeIn w.registry asked name, w.after es) ∧
      Unseen es :=
  ⟨_, _, r.run_resolve_eq name w, r.unseen_inquiry name⟩

end Resolver

/-! ### Types that do the same on every call -/

namespace Registry

/-- What holds of all factories that are listed holds of every factory of a type. -/
theorem forall_factory {P : Factory → Prop} {r : Registry}
    (hr : ∀ entry ∈ r.entries, ∀ binding ∈ entry.2.bindings, P binding.2) {name : String}
    {t : ProviderType} (ht : r.resolve name = some t) {contract : Contract} {factory : Factory}
    (hfactory : t.factory? contract = some factory) : P factory :=
  hr (name, t) (Keyed.mem_of_lookup ht) (contract, factory) (Keyed.mem_of_lookup hfactory)

/-- What holds of all factories of types holds of all that are listed when the types are taken
over. -/
theorem forall_listed_registerAll {P : Factory → Prop} {types : List ProviderType}
    (h : ∀ t ∈ types, ∀ binding ∈ t.bindings, P binding.2) :
    ∀ entry ∈ (registerAll ∅ types).entries, ∀ binding ∈ entry.2.bindings, P binding.2 := by
  -- The induction goes over the types, from any registry that has the property.
  have hall : ∀ r : Registry, (∀ entry ∈ r.entries, ∀ binding ∈ entry.2.bindings, P binding.2) →
      ∀ entry ∈ (r.registerAll types).entries, ∀ binding ∈ entry.2.bindings, P binding.2 := by
    induction types with
    | nil => exact fun r hr => hr
    | cons t rest ih =>
      obtain ⟨ht, hrest⟩ := List.forall_mem_cons.mp h
      exact fun r hr => ih hrest (r.put t) (Keyed.forall_mem_put hr ht)
  exact hall ∅ nofun

/-- A registry is **steady** when each factory of its types ends all of its calls alike. -/
def IsSteady (r : Registry) : Prop :=
  ∀ name t, r.resolve name = some t → ∀ contract factory, t.factory? contract = some factory →
    ∀ n, factory.outcome n = factory.outcome 0

/-- It is enough to look at the factories of the types that are taken over. -/
theorem isSteady_registerAll {types : List ProviderType}
    (h : ∀ t ∈ types, ∀ binding ∈ t.bindings, ∀ n, binding.2.outcome n = binding.2.outcome 0) :
    (registerAll ∅ types).IsSteady :=
  fun _ _ ht _ _ hfactory => by
    let P (factory : Factory) : Prop := ∀ n, factory.outcome n = factory.outcome 0
    exact forall_factory (P := P) (forall_listed_registerAll (P := P) h) ht hfactory

/-- In a steady registry each name has one verdict. -/
theorem IsSteady.verdict_eq {r : Registry} (h : r.IsSteady) (contract : Contract) (asked : Nat)
    (calls : Handle → Nat) (name : String) :
    Resolver.registry.verdict contract r asked calls name =
      Resolver.registry.verdict contract r 0 (fun _ => 0) name := by
  simp only [Resolver.verdict, Resolver.typeIn]
  cases ht : r.resolve name with
  | none => rfl
  | some t =>
    cases hfactory : t.factory? contract with
    | none => simp only [hfactory]
    | some factory => simp only [hfactory, h name t ht contract factory hfactory (calls _)]

end Registry

/-! ### One acceptance -/

/-- A factory that is called numbers what it makes by all calls of factories. -/
theorem Factory.run_call (f : Factory) (name : String) (w : World) :
    (f.call name).run w =
      match f.outcome (w.callCount f.handle) with
      | .made =>
        let provider : Provider := ⟨f.value, w.constructed.length + 1⟩
        (.ok provider, w.after [.constructed f.handle name f.value, .made name provider])
      | .failed cause => (.error cause, w.after [.constructed f.handle name f.value])
      | .threw thrown => (.error thrown.message, w.after [.constructed f.handle name f.value]) := by
  have hserial : (w.after [.constructed f.handle name f.value]).constructed.length =
      w.constructed.length + 1 := w.length_constructed_after _
  rw [call, Action.run_bind, run_countCall]
  cases f.outcome (w.callCount f.handle) with
  | made =>
    rw [← hserial]
    rfl
  | failed cause => rfl
  | threw thrown => rfl

/-- Accepting a name does nothing but accept it. -/
theorem doesOnly_accept (r : Resolver) (contract : Contract) (capability : CapabilityId)
    (name : String) (c : Instances Provider) :
    DoesOnly (fun e => e.isAcceptance) (accept r contract capability name c) := by
  have hresolve : DoesOnly (fun e => e.isAcceptance) (r.resolve name) := by
    cases r with
    | nothing => exact .pure _
    | registry => exact .bind (.record rfl) fun _ => .bind .get fun _ => .pure _
    | party p => exact .bind (.countCall rfl) fun _ => .pure _
  have hcall : ∀ f : Factory, DoesOnly (fun e => e.isAcceptance) (f.call name) := fun f => by
    refine .bind (.countCall rfl) fun before => ?_
    cases f.outcome before with
    | made => exact .bind .get fun _ => .bind (.record rfl) fun _ => .pure _
    | failed cause => exact .pure _
    | threw thrown => exact .pure _
  refine hresolve.bind fun found => ?_
  cases found with
  | none => exact .pure _
  | some t =>
    simp only
    cases t.factory? contract with
    | none => exact .pure _
    | some factory =>
      refine (hcall factory).bind fun answer => ?_
      cases answer <;> exact .pure _

/-- **Accepting** a name follows the verdict on it. -/
theorem run_accept_eq (r : Resolver) (contract : Contract) (capability : CapabilityId)
    (name : String) (c : Instances Provider) (w : World) :
    ∃ es,
      let v := r.verdictIn contract w name
      let serial := w.constructed.length + 1
      (accept r contract capability name c).run w = (v.keep capability name serial c, w.after es) ∧
        calledNames es = v.called name ∧ madeProviders es = v.made name serial ∧
        triedNames es = [] := by
  have hresolve := r.run_resolve_eq name w
  have hunseen := r.unseen_inquiry name
  rw [Resolver.verdictIn]
  generalize r.asked w = asked, r.inquiry name = es at hresolve hunseen ⊢
  have hserial : (w.after es).constructed.length = w.constructed.length := by
    rw [World.length_constructed_after, hunseen.called]
    rfl
  have hviews : ∀ fs, calledNames (es ++ fs) = calledNames fs ∧
      madeProviders (es ++ fs) = madeProviders fs ∧ triedNames (es ++ fs) = triedNames fs :=
    fun fs => ⟨hunseen.calledNames_append fs, hunseen.madeProviders_append fs,
      hunseen.triedNames_append fs⟩
  simp only [accept, Action.run_bind, hresolve, Resolver.verdict]
  cases htype : r.typeIn w.registry asked name with
  | none => exact ⟨es, rfl, hunseen.called, hunseen.made, hunseen.tried⟩
  | some type =>
    cases hfactory : type.factory? contract with
    | none =>
      simp only [hfactory]
      exact ⟨es, rfl, hunseen.called, hunseen.made, hunseen.tried⟩
    | some factory =>
      have hcall := factory.run_call name (w.after es)
      rw [hserial] at hcall
      simp only [hfactory, Action.run_bind, hcall]
      cases factory.outcome ((w.after es).callCount factory.handle) with
      | made =>
        refine ⟨es ++ [.constructed factory.handle name factory.value,
          .made name ⟨factory.value, w.constructed.length + 1⟩], ?_, hviews _⟩
        rw [← World.after_after]
        rfl
      | failed cause =>
        refine ⟨es ++ [.constructed factory.handle name factory.value], ?_, hviews _⟩
        rw [← World.after_after]
        rfl
      | threw thrown =>
        refine ⟨es ++ [.constructed factory.handle name factory.value], ?_, hviews _⟩
        rw [← World.after_after]
        rfl

/-- So it follows some verdict that is read off the registry and numbers of calls. -/
theorem run_accept (r : Resolver) (contract : Contract) (capability : CapabilityId) (name : String)
    (c : Instances Provider) (w : World) :
    ∃ asked calls es,
      let v := r.verdict contract w.registry asked calls name
      let serial := w.constructed.length + 1
      (accept r contract capability name c).run w = (v.keep capability name serial c, w.after es) ∧
        calledNames es = v.called name ∧ madeProviders es = v.made name serial ∧
        triedNames es = [] :=
  ⟨_, _, run_accept_eq r contract capability name c w⟩

end ProviderDiscovery
