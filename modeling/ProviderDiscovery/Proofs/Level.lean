import ProviderDiscovery.Proofs.Acceptance
import ProviderDiscovery.Proofs.Authority
import ProviderDiscovery.Proofs.Candidates.Enumeration
import ProviderDiscovery.Proofs.Scope.Delegation

/-!
# Steps in level worlds

What a step does depends on the files, the types, the number of factory calls so far, and how often
the parties that it calls have been called. Two worlds are `Level` for some parties when they agree
in all of that, as far as these parties are concerned. Steps go `Alongside` each other when they
answer alike and do the same in all level worlds, and call only such parties. The steps of a search
and of an acceptance go alongside themselves; and a search whose resources have been located goes
alongside the same search in any other scope.
-/

namespace ProviderDiscovery

variable {H : Handle → Prop} {T : Registry → Prop}

/-! ### Parties that are called -/

/-- The factories of the type are among the parties. -/
def ProviderType.Within (t : ProviderType) (H : Handle → Prop) : Prop :=
  ∀ contract factory, t.factory? contract = some factory → H factory.handle

/-- The factories of all types in the registry are among the parties. -/
def Registry.Within (r : Registry) (H : Handle → Prop) : Prop :=
  ∀ name t, r.resolve name = some t → t.Within H

/-- The party that is asked for types is among the parties, and so are the factories of these
types. -/
def Resolver.Within (r : Resolver) (H : Handle → Prop) : Prop :=
  ∀ p, r = .party p → H p.handle ∧ ∀ asked name t, p.answer asked name = some t → t.Within H

/-- The parties in a scope are among the parties. -/
def Scope.Within (s : Scope) (H : Handle → Prop) : Prop :=
  ∀ p services parent, .custom p services parent ∈ s.leaves → H p.handle

/-- The party whose authority is held is among the parties. -/
def Authority.Within (a : Authority) (H : Handle → Prop) : Prop :=
  ∀ token p, a = .held token p → H p.handle

/-- It is enough to look at the factories of the types that are taken over. -/
theorem Registry.within_registerAll {types : List ProviderType}
    (h : ∀ t ∈ types, ∀ binding ∈ t.bindings, H binding.2.handle) :
    (registerAll ∅ types).Within H :=
  fun _ _ ht _ _ hfactory => by
    let P (factory : Factory) : Prop := H factory.handle
    exact forall_factory (P := P) (forall_listed_registerAll (P := P) h) ht hfactory

theorem Registry.within_true (r : Registry) : r.Within fun _ => True :=
  fun _ _ _ _ _ _ => trivial

theorem Resolver.within_true (r : Resolver) : r.Within fun _ => True :=
  fun _ _ => ⟨trivial, fun _ _ _ _ _ _ _ => trivial⟩

/-- Events **call within** parties when each call is a call of one of them. -/
def CallsWithin (H : Handle → Prop) (es : List Event) : Prop := ∀ e ∈ es, ∀ h, e.calls h → H h

theorem CallsWithin.append {es fs : List Event} (hes : CallsWithin H es) (hfs : CallsWithin H fs) :
    CallsWithin H (es ++ fs) :=
  List.forall_mem_append.mpr ⟨hes, hfs⟩

theorem callsWithin_nil : CallsWithin H [] := nofun

/-- An event that calls nobody. -/
theorem callsWithin_of_calls_eq_false {e : Event} (he : ∀ h, e.calls h = false) :
    CallsWithin H [e] := by
  intro e' he' h hcalls
  rw [List.mem_singleton.mp he', he h] at hcalls
  cases hcalls

/-- An event that calls one party only. -/
theorem callsWithin_singleton {e : Event} {h : Handle} (hh : H h)
    (he : ∀ other, e.calls other → other = h) : CallsWithin H [e] := by
  intro e' he' other hcalls
  rw [List.mem_singleton.mp he'] at hcalls
  exact he other hcalls ▸ hh

/-! ### Level worlds -/

/-- Worlds are **level** for some parties when the files and the types are the same, factories have
been called as often, and each of the parties has been called as often. Something more may be known
of the types. -/
structure World.Level (H : Handle → Prop) (T : Registry → Prop) (w w' : World) : Prop where
  files : w.files = w'.files
  registry : w.registry = w'.registry
  types : T w.registry
  constructed : w.constructed.length = w'.constructed.length
  callCount : ∀ h, H h → w.callCount h = w'.callCount h

namespace World.Level

variable {w w' : World}

protected theorem refl (hw : T w.registry) : w.Level H T w := ⟨rfl, rfl, hw, rfl, fun _ _ => rfl⟩

protected theorem symm (hw : w.Level H T w') : w'.Level H T w :=
  ⟨hw.files.symm, hw.registry.symm, hw.registry ▸ hw.types, hw.constructed.symm,
    fun h hh => (hw.callCount h hh).symm⟩

/-- Worlds stay level when the same is done in both. -/
theorem after (hw : w.Level H T w') (es : List Event) : (w.after es).Level H T (w'.after es) where
  files := hw.files
  registry := hw.registry
  types := hw.types
  constructed := by rw [length_constructed_after, length_constructed_after, hw.constructed]
  callCount := fun h hh => by rw [callCount_after, callCount_after, hw.callCount h hh]

/-- They stay level when something is done in one of them that calls neither a factory nor one of
the parties. -/
theorem after_left (hw : w.Level H T w') {es : List Event} (hes : ∀ e ∈ es, ∀ h, e.calls h → ¬H h)
    (hcalled : calledNames es = []) : (w.after es).Level H T w' where
  files := hw.files
  registry := hw.registry
  types := hw.types
  constructed := by rw [length_constructed_after, hcalled, hw.constructed]; rfl
  callCount := fun h hh => by
    have hnone : es.countP (·.calls h) = 0 :=
      List.countP_eq_zero.mpr fun e he hcalls => hes e he h hcalls hh
    rw [callCount_after, hnone, hw.callCount h hh]
    rfl

/-- They stay level when files and types change in both. -/
theorem changed (hw : w.Level H T w') (files : FileTree) {registry : Registry}
    (hregistry : T registry) :
    World.Level H T { w with files := files, registry := registry }
      { w' with files := files, registry := registry } :=
  ⟨rfl, rfl, hregistry, hw.constructed, hw.callCount⟩

end World.Level

/-! ### Steps alongside each other -/

/-- Steps go **alongside** each other when in level worlds their answers are related, and they do
the same, with calls of the given parties only. -/
def Alongside {α β : Type} (H : Handle → Prop) (T : Registry → Prop) (S : α → β → Prop)
    (x : Action α) (y : Action β) : Prop :=
  ∀ w w', w.Level H T w' → ∃ a b es, x.run w = (a, w.after es) ∧ y.run w' = (b, w'.after es) ∧
    S a b ∧ CallsWithin H es

/-- A step is **even** when it goes alongside itself, with the same answer. -/
abbrev Even {α : Type} (H : Handle → Prop) (T : Registry → Prop) (x : Action α) : Prop :=
  Alongside H T Eq x x

namespace Alongside

variable {α β γ δ ε : Type} {S : α → β → Prop} {R : γ → δ → Prop} {x : Action α} {y : Action β}

protected theorem pure {a : α} {b : β} (hab : S a b) :
    Alongside H T S (pure a : Action α) (pure b : Action β) :=
  fun _ _ _ => ⟨a, b, [], rfl, rfl, hab, callsWithin_nil⟩

theorem mono {S' : α → β → Prop} (hxy : Alongside H T S x y) (hS : ∀ a b, S a b → S' a b) :
    Alongside H T S' x y := by
  intro w w' hw
  obtain ⟨a, b, es, hx, hy, hab, hes⟩ := hxy w w' hw
  exact ⟨a, b, es, hx, hy, hS a b hab, hes⟩

/-- Steps that go on with related answers, of which something is known. -/
theorem bind_of_answer {Q : α → Prop} {f : α → Action γ} {g : β → Action δ}
    (hxy : Alongside H T S x y) (hQ : ∀ w : World, T w.registry → Q (x.run w).1)
    (hfg : ∀ a b, S a b → Q a → Alongside H T R (f a) (g b)) :
    Alongside H T R (x >>= f) (y >>= g) := by
  intro w w' hw
  obtain ⟨a, b, es, hx, hy, hab, hes⟩ := hxy w w' hw
  have ha : Q a := by
    have hanswer := hQ w hw.types
    rwa [hx] at hanswer
  obtain ⟨c, d, fs, hf, hg, hcd, hfs⟩ := hfg a b hab ha _ _ (hw.after es)
  refine ⟨c, d, es ++ fs, ?_, ?_, hcd, hes.append hfs⟩
  · rw [Action.run_bind, hx, hf, World.after_after]
  · rw [Action.run_bind, hy, hg, World.after_after]

protected theorem bind {f : α → Action γ} {g : β → Action δ} (hxy : Alongside H T S x y)
    (hfg : ∀ a b, S a b → Alongside H T R (f a) (g b)) : Alongside H T R (x >>= f) (y >>= g) :=
  hxy.bind_of_answer (Q := fun _ => True) (fun _ _ => trivial) fun a b hab _ => hfg a b hab

/-- Steps that go on with what is the same in both worlds. -/
theorem get_bind {f : World → Action γ} {g : World → Action δ}
    (hsame : ∀ w w', w.Level H T w' → g w' = g w)
    (hfg : ∀ w, Alongside H T R (f w) (g w)) : Alongside H T R (get >>= f) (get >>= g) := by
  intro w w' hw
  obtain ⟨a, b, es, hrun, hrun', hab, hes⟩ := hfg w w w' hw
  refine ⟨a, b, es, hrun, ?_, hab, hes⟩
  rw [← hsame w w' hw] at hrun'
  exact hrun'

protected theorem record {e : Event} (he : CallsWithin H [e]) : Even H T (record e) :=
  fun _ _ _ => ⟨(), (), [e], rfl, rfl, rfl, he⟩

theorem countCall {h : Handle} (hh : H h) {e : Event} (he : CallsWithin H [e]) :
    Even H T (countCall h e) := by
  intro w w' hw
  refine ⟨w.callCount h, _, [e], rfl, rfl, ?_, he⟩
  exact hw.callCount h hh

/-! #### Steps that can fail -/

theorem attempt_bind {x y : Attempt ε α} {f g : α → Attempt ε β}
    (hxy : Alongside H T Eq x.run y.run)
    (hfg : ∀ a, Alongside H T Eq (f a).run (g a).run) :
    Alongside H T Eq (x >>= f).run (y >>= g).run := by
  rw [ExceptT.run_bind, ExceptT.run_bind]
  refine hxy.bind fun answer _ hanswer => ?_
  subst hanswer
  cases answer with
  | error e => exact .pure rfl
  | ok a => exact hfg a

theorem attempt_of (a : Except ε α) : Even H T (MonadExcept.ofExcept a : Attempt ε α).run := by
  cases a <;> exact .pure rfl

theorem attempt_lift {x : Action α} (hx : Even H T x) : Even H T (liftM x : Attempt ε α).run := by
  intro w w' hw
  obtain ⟨a, _, es, hrun, hrun', rfl, hes⟩ := hx w w' hw
  have hlift : ∀ v, (liftM x : Attempt ε α).run.run v = (.ok (x.run v).1, (x.run v).2) :=
    fun _ => rfl
  exact ⟨.ok a, _, es, by rw [hlift, hrun], by rw [hlift, hrun'], rfl, hes⟩

theorem attempt_get_bind {f : World → Attempt ε β} (hsame : ∀ w w', w.Level H T w' → f w' = f w)
    (hf : ∀ w, Even H T (f w).run) : Even H T (get >>= f : Attempt ε β).run := by
  intro w w' hw
  obtain ⟨a, b, es, hrun, hrun', hab, hes⟩ := hf w w w' hw
  refine ⟨a, b, es, hrun, ?_, hab, hes⟩
  rw [← hsame w w' hw] at hrun'
  exact hrun'

end Alongside

/-! ### Searching -/

namespace Scope

mutual

/-- Asking a scope is even if its parties are among the given ones. -/
theorem even_resources (name : String) :
    ∀ s : Scope, s.Within H → Even H T (s.resources name).run
  | .memory scope services parent, hs => by
    rw [resources]
    refine .attempt_bind (even_parentResources name parent fun p services' outer hp => ?_) fun _ =>
      .pure rfl
    refine hs p services' outer ?_
    rw [leaves]
    exact List.mem_append_left _ hp
  | .directory root, _ => by
    rw [resources]
    refine .attempt_get_bind (fun w w' hw => ?_) fun _ => .pure rfl
    rw [hw.files]
  | .archive path, _ => by
    rw [resources]
    refine .attempt_get_bind (fun w w' hw => ?_) fun _ => .attempt_of _
    rw [hw.files]
  | .classPath title entries parent, hs => by
    rw [resources]
    refine .attempt_bind (even_parentResources name parent fun p services outer hp => ?_) fun _ =>
      .attempt_bind (even_entryResources name entries fun p services outer hp => ?_) fun _ =>
        .pure rfl
    · refine hs p services outer ?_
      rw [leaves]
      exact List.mem_append_left _ hp
    · refine hs p services outer ?_
      rw [leaves]
      exact List.mem_append_right _ hp
  | .custom p services parent, hs => by
    have hp : H p.handle := hs p services parent (by rw [leaves]; exact List.mem_singleton_self _)
    rw [resources, partyResources]
    refine .attempt_bind (.attempt_lift (.countCall hp (callsWithin_singleton hp ?_))) fun _ =>
      .attempt_of _
    exact fun other hcalls => (beq_iff_eq.mp hcalls).symm

theorem even_parentResources (name : String) : ∀ parent : Option Scope,
    (∀ p services outer, .custom p services outer ∈ parentLeaves parent → H p.handle) →
      Even H T (parentResources name parent).run
  | none, _ => by
    rw [parentResources]
    exact .pure rfl
  | some parent, hs => by
    rw [parentResources]
    refine even_resources name parent fun p services outer hp => hs p services outer ?_
    rwa [parentLeaves]

theorem even_entryResources (name : String) : ∀ entries : List Scope,
    (∀ p services outer, .custom p services outer ∈ entryLeaves entries → H p.handle) →
      Even H T (entryResources name entries).run
  | [], _ => by
    rw [entryResources]
    exact .pure rfl
  | entry :: rest, hs => by
    rw [entryResources]
    refine .attempt_bind (even_resources name entry fun p services outer hp => ?_) fun _ =>
      .attempt_bind (even_entryResources name rest fun p services outer hp => ?_) fun _ => .pure rfl
    · refine hs p services outer ?_
      rw [entryLeaves]
      exact List.mem_append_left _ hp
    · refine hs p services outer ?_
      rw [entryLeaves]
      exact List.mem_append_right _ hp

end

theorem even_locate {s : Scope} (hs : s.Within H) (c : CapabilityId) :
    Even H T (s.locate c).run := by
  unfold locate
  split
  · exact .pure rfl
  · exact .attempt_bind (.attempt_lift (.record (callsWithin_of_calls_eq_false fun _ => rfl)))
      fun _ => even_resources _ s hs

/-- The party is one of those in a scope. -/
def IsParty (s : Scope) (h : Handle) : Prop :=
  ∃ p services parent, .custom p services parent ∈ s.leaves ∧ p.handle = h

theorem isParty_party_iff {p : ScopeParty} {h : Handle} :
    (Scope.party p).IsParty h ↔ p.handle = h := by
  simp [IsParty, leaves]

/-- A party answers by the number of questions that it was asked before. -/
theorem run_locate_party (p : ScopeParty) {c : CapabilityId} (hc : isQualifiedName c.text)
    (w : World) : (((party p).locate c).run.run w).1 =
      p.answer (w.callCount p.handle) c.resourceName := by
  have hcount : (w.after [.asked p.name c.resourceName]).callCount p.handle =
      w.callCount p.handle := by
    simp [World.callCount_after, Event.calls]
  have hname : (party p).name = p.name := rfl
  rw [run_locate_of_isQualifiedName hc, hname, party, resources, partyResources, ← hcount]
  generalize w.after [.asked p.name c.resourceName] = v
  change ((MonadExcept.ofExcept (p.answer (v.callCount p.handle) c.resourceName) :
    Attempt ScopeError (List Resource)).run.run _).1 = _
  cases p.answer (v.callCount p.handle) c.resourceName <;> rfl

/-- Locating asks, and calls the parties in the scope only. -/
theorem exists_run_locate (s : Scope) (c : CapabilityId) (w : World) :
    ∃ answer es, (s.locate c).run.run w = (answer, w.after es) ∧ (∀ e ∈ es, e.asks) ∧
      CallsWithin s.IsParty es := by
  obtain ⟨es, hworld, hasks⟩ := s.doesOnly_locate_asks c w
  have hwithin : s.Within s.IsParty := fun p _ _ hp => ⟨p, _, _, hp, rfl⟩
  have hself : w.Level s.IsParty (fun _ => True) w := .refl trivial
  obtain ⟨answer, _, fs, hrun, -, -, hcalls⟩ := even_locate hwithin c w w hself
  obtain rfl : es = fs := World.after_inj (hworld.symm.trans (congrArg Prod.snd hrun))
  exact ⟨answer, es, hrun, hasks, hcalls⟩

end Scope

namespace Candidates

/-- The candidates in another scope. -/
def inScope (c : Candidates) (scope : Scope) : Candidates := { c with scope := scope }

variable (known : String → Bool)

theorem even_listedNames (capability : CapabilityId) (r : Resource) :
    Even H T (listedNames capability r) := by
  intro w w' hw
  refine ⟨r.namesIn capability w.files, _, [.opened r], rfl, ?_, rfl,
    callsWithin_of_calls_eq_false fun _ => rfl⟩
  rw [run_listedNames, hw.files]

/-- Neither the scope nor what is still unread makes a difference to the pending names. -/
theorem searchPending_of_located (c : Candidates) (scope : Scope) (unread : Option (List Resource))
    (names : List String) :
    searchPending known { c with scope := scope, unread := unread } names =
      ((c.searchPending known names).1,
        { (c.searchPending known names).2 with scope := scope, unread := unread }) := by
  induction names with
  | nil => rfl
  | cons name rest ih =>
    rw [searchPending, searchPending]
    have hskip : isSkipped { c with scope := scope, unread := unread } known name =
        c.isSkipped known name := rfl
    rw [hskip]
    cases c.isSkipped known name with
    | true => exact ih
    | false =>
      cases hcurrent : c.current with
      | none => simpa [hcurrent] using ih
      | some resource => simp

theorem scope_searchPending (c : Candidates) (names : List String) :
    (c.searchPending known names).2.scope = c.scope := by
  rcases searchPending_cases known c names [] with ⟨hp, -⟩ | ⟨name, rest, resource, hp, -⟩
  all_goals rw [hp]

/-- A search through resources goes alongside the same search in another scope. -/
theorem alongside_search (rs : List Resource) (c : Candidates) (scope : Scope)
    (unread : Option (List Resource)) :
    Alongside H T
      (fun a b => a.1 = b.1 ∧ a.2.scope = c.scope ∧ b.2 = a.2.inScope scope ∧ a.2.unread.isSome)
      (search known rs c) (search known rs { c with scope := scope, unread := unread }) := by
  -- The induction follows the resources. The scope comes back only in the state that is given on.
  induction rs generalizing c unread with
  | nil =>
    have hkept := scope_searchPending known c c.pending
    rw [search, search, searchPending_of_located known c scope unread c.pending]
    generalize c.searchPending known c.pending = searched at hkept ⊢
    obtain ⟨found, c'⟩ := searched
    cases found <;> exact .pure ⟨rfl, hkept, rfl, rfl⟩
  | cons r rest ih =>
    have hkept := scope_searchPending known c c.pending
    rw [search, search, searchPending_of_located known c scope unread c.pending]
    generalize c.searchPending known c.pending = searched at hkept ⊢
    obtain ⟨found, c'⟩ := searched
    cases found with
    | true => exact .pure ⟨rfl, hkept, rfl, rfl⟩
    | false =>
      refine .bind (even_listedNames c'.capability r) fun answer _ hanswer => ?_
      subst hanswer
      cases answer with
      | error e => exact .pure ⟨rfl, hkept, rfl, rfl⟩
      | ok names =>
        rw [← hkept]
        exact ih { c' with current := some r.id, pending := names } unread

/-- Candidates are **twins** in two scopes when they are the same besides, and either the resources
have been located, or the scopes are the same as well and call given parties only. -/
structure Twin (H : Handle → Prop) (scope scope' : Scope) (c c' : Candidates) : Prop where
  scope_eq : c.scope = scope
  twin_eq : c' = c.inScope scope'
  located : c.unread.isSome ∨ scope' = scope ∧ scope.Within H

namespace Twin

variable {scope scope' : Scope} {c c' : Candidates}

/-- Candidates are twins of themselves. -/
protected theorem refl (hc : c.unread.isSome ∨ c.scope.Within H) : c.Twin H c.scope c.scope c :=
  ⟨rfl, rfl, hc.imp_right fun h => ⟨rfl, h⟩⟩

/-- Asking twins for another candidate goes alongside. -/
theorem hasNext (h : Twin H scope scope' c c') :
    Alongside H T (fun a b => a.1 = b.1 ∧ Twin H scope scope' a.2 b.2)
      (c.hasNext known) (c'.hasNext known) := by
  obtain ⟨rfl, rfl, hlocated⟩ := h
  have hsearch : ∀ rs, Alongside H T
      (fun a b => a.1 = b.1 ∧ Twin H c.scope scope' a.2 b.2)
      (search known rs c) (search known rs (c.inScope scope')) := fun rs =>
    (alongside_search known rs c scope' c.unread).mono fun a b ⟨hanswer, hscope, htwin, hunread⟩ =>
      ⟨hanswer, hscope, htwin, .inl hunread⟩
  unfold Candidates.hasNext inScope
  simp only
  split
  · exact .pure ⟨rfl, rfl, rfl, hlocated⟩
  split
  · exact hsearch _
  · rename_i hunread
    obtain ⟨rfl, hwithin⟩ : scope' = c.scope ∧ c.scope.Within H :=
      hlocated.resolve_left (by simp [hunread])
    refine .bind (Scope.even_locate hwithin c.capability) fun answer _ hanswer => ?_
    subst hanswer
    cases answer with
    | error cause => exact .pure ⟨rfl, rfl, rfl, .inr ⟨rfl, hwithin⟩⟩
    | ok rs => exact hsearch rs

/-- **Requests for candidates** of twins go alongside. -/
theorem next (h : Twin H scope scope' c c') :
    Alongside H T (fun a b => a.1 = b.1 ∧ Twin H scope scope' a.2 b.2)
      (c.next known) (c'.next known) := by
  refine .bind (h.hasNext known) ?_
  rintro ⟨answer, c₁⟩ ⟨_, _⟩ ⟨rfl, rfl, rfl, hlocated⟩
  rcases answer with e | _ | _
  · exact .pure ⟨rfl, rfl, rfl, hlocated⟩
  · exact .pure ⟨rfl, rfl, rfl, hlocated⟩
  · simp only [inScope]
    split <;> exact .pure ⟨rfl, rfl, rfl, hlocated⟩

end Twin

/-- A request that locates the resources goes on as if they had been located before. -/
theorem run_next_of_located {c : Candidates} {w w' : World} {rs : List Resource}
    (hu : c.upcoming = none) (hunread : c.unread = none)
    (hlocate : (c.scope.locate c.capability).run.run w = (.ok rs, w')) :
    (c.next known).run w = (next known { c with unread := some rs }).run w' := by
  have hself : w'.Level (fun _ => True) (fun _ => True) w' := .refl trivial
  obtain ⟨a, b, es, hrun, hrun', ⟨hanswer, hscope, htwin, -⟩, -⟩ :=
    alongside_search known rs c c.scope (some rs) w' w' hself
  have hsame : b = a := by
    refine Prod.ext hanswer.symm ?_
    rw [htwin, inScope, ← hscope]
  have hlocated : hasNext known { c with unread := some rs } =
      search known rs { c with unread := some rs } := by
    simp [hasNext, hu]
  rw [next, next, Action.run_bind, Action.run_bind, hlocated,
    run_hasNext_of_located known hu hunread hlocate, hrun]
  rw [show search known rs { c with unread := some rs } =
    search known rs { c with scope := c.scope, unread := some rs } from rfl, hrun', hsame]

/-- A request for a candidate is even if the parties of the scope are among the given ones. -/
theorem even_next {c : Candidates} (hc : c.scope.Within H) : Even H T (c.next known) :=
  (Twin.next known (.refl (.inr hc))).mono fun (_, c₁) (_, c₂) ⟨hanswer, hscope, htwin, _⟩ => by
    have hsame : c₂ = c₁ := htwin.trans (by rw [inScope, ← hscope])
    exact Prod.ext hanswer hsame.symm

end Candidates

/-! ### Accepting -/

namespace Resolver

theorem even_resolve {r : Resolver} (hr : r.Within H) (name : String) :
    Even H T (r.resolve name) := by
  cases r with
  | nothing => exact .pure rfl
  | registry =>
    refine .bind (.record (callsWithin_of_calls_eq_false fun _ => rfl)) fun _ _ _ =>
      .get_bind (fun w w' hw => ?_) fun w => .pure rfl
    rw [hw.registry]
  | party p =>
    have hp : H p.handle := (hr p rfl).1
    refine .bind (.countCall hp (callsWithin_singleton hp ?_)) fun before _ hbefore => ?_
    · exact fun other hcalls => (beq_iff_eq.mp hcalls).symm
    · subst hbefore
      exact .pure rfl

/-- The type that is found makes its providers through the given parties. -/
theorem within_of_typeIn {r : Resolver} (hr : r.Within H) {registry : Registry}
    (hregistry : registry.Within H) {asked : Nat} {name : String} {t : ProviderType}
    (ht : r.typeIn registry asked name = some t) : t.Within H := by
  cases r with
  | nothing => cases ht
  | registry => exact hregistry name t ht
  | party p => exact (hr p rfl).2 asked name t ht

end Resolver

theorem Factory.even_call {f : Factory} (hf : H f.handle) (name : String) :
    Even H T (f.call name) := by
  refine .bind (.countCall hf (callsWithin_singleton hf ?_)) fun before _ hbefore => ?_
  · exact fun other hcalls => (beq_iff_eq.mp hcalls).symm
  subst hbefore
  cases f.outcome before with
  | failed cause => exact .pure rfl
  | threw thrown => exact .pure rfl
  | made =>
    refine .get_bind (fun w w' hw => ?_) fun w =>
      .bind (.record (callsWithin_of_calls_eq_false fun _ => rfl)) fun _ _ _ => .pure rfl
    rw [hw.constructed]

/-- Tables of instances are **twins** in two generations when they have the same entries. -/
structure Instances.Twin {α : Type} (generation generation' : Nat) (i i' : Instances α) : Prop where
  entries_eq : i.entries = i'.entries
  generation_eq : i.generation = generation
  generation'_eq : i'.generation = generation'

namespace Instances.Twin

variable {α : Type} {generation generation' : Nat} {i i' : Instances α}

protected theorem refl (i : Instances α) : i.Twin i.generation i.generation i := ⟨rfl, rfl, rfl⟩

/-- Twins of one generation are the same. -/
theorem eq (h : Twin generation generation i i') : i = i' := by
  obtain ⟨entries, _, _⟩ := i
  obtain ⟨_, _, _⟩ := i'
  obtain ⟨rfl, hgeneration, hgeneration'⟩ := h
  obtain rfl := hgeneration.trans hgeneration'.symm
  rfl

/-- Twins answer an insertion alike. -/
theorem insert (h : Twin generation generation' i i') (name : String) (a : α) :
    (i.insert name a).1 = (i'.insert name a).1 ∧
      Twin generation generation' (i.insert name a).2 (i'.insert name a).2 := by
  obtain ⟨entries, _, _⟩ := i
  obtain ⟨_, _, _⟩ := i'
  obtain ⟨rfl, rfl, rfl⟩ := h
  simp only [Instances.insert, get?]
  cases entries.lookup name <;> exact ⟨rfl, rfl, rfl, rfl⟩

end Instances.Twin

/-- **Accepting a name** goes alongside for twin tables. -/
theorem alongside_accept (hT : ∀ registry, T registry → registry.Within H) {r : Resolver}
    (hr : r.Within H) (contract : Contract)
    (capability : CapabilityId) (name : String) {generation generation' : Nat}
    {i i' : Instances Provider} (hi : i.Twin generation generation' i') :
    Alongside H T (fun a b => a.1 = b.1 ∧ a.2.Twin generation generation' b.2)
      (accept r contract capability name i) (accept r contract capability name i') := by
  refine (Resolver.even_resolve hr name).bind_of_answer
    (Q := fun found => ∀ t, found = some t → t.Within H) (fun w hw t ht => ?_)
    fun found _ hfound hwithin => ?_
  · obtain ⟨asked, es, hrun, -⟩ := r.run_resolve name w
    rw [hrun] at ht
    exact Resolver.within_of_typeIn hr (hT _ hw) ht
  · subst hfound
    cases found with
    | none => exact .pure ⟨rfl, hi⟩
    | some t =>
      simp only
      cases hfactory : t.factory? contract with
      | none => exact .pure ⟨rfl, hi⟩
      | some factory =>
        refine .bind (Factory.even_call (hwithin t rfl contract factory hfactory) name)
          fun answer _ hanswer => ?_
        subst hanswer
        cases answer with
        | error cause => exact .pure ⟨rfl, hi⟩
        | ok provider =>
          obtain ⟨hkept, hinserted⟩ := hi.insert name provider
          exact .pure ⟨congrArg Except.ok hkept, hinserted⟩

theorem even_accept (hT : ∀ registry, T registry → registry.Within H) {r : Resolver}
    (hr : r.Within H) (contract : Contract)
    (capability : CapabilityId) (name : String) (i : Instances Provider) :
    Even H T (accept r contract capability name i) :=
  (alongside_accept hT hr contract capability name (.refl i)).mono fun _ _ ⟨hanswer, htwin⟩ =>
    Prod.ext hanswer htwin.eq

/-! ### Steps under an authority -/

/-- A step on a state goes alongside under one authority, carried out or not. -/
theorem Authority.alongside_run {σ τ α : Type} {I : σ → τ → Prop} {a : Authority}
    (ha : a.Within H) (capability : CapabilityId) {step : σ → Action (α × σ)}
    {step' : τ → Action (α × τ)} {s : σ} {s' : τ} (hs : I s s')
    (hstep : Alongside H T (fun x y => x.1 = y.1 ∧ I x.2 y.2) (step s) (step' s')) :
    Alongside H T (fun x y => x.1 = y.1 ∧ I x.2 y.2) (a.run capability step s)
      (a.run capability step' s') := by
  intro w w' hw
  -- The party has been called as often in both worlds, so it behaves alike when it is entered.
  have hentrance : a.entranceIn w = a.entranceIn w' := by
    cases a with
    | unrestricted => rfl
    | held token party => exact congrArg party.entrance (hw.callCount _ (ha token party rfl))
  have hentry : CallsWithin H a.entry := by
    cases a with
    | unrestricted => exact callsWithin_nil
    | held token party =>
      exact callsWithin_singleton (ha token party rfl) fun other hcalls =>
        (beq_iff_eq.mp hcalls).symm
  by_cases hruns : (a.entranceIn w).runs = 0
  · have hrun := run_of_runs_eq_zero hruns capability step s
    have hrun' := run_of_runs_eq_zero (hentrance ▸ hruns) capability step' s'
    rw [enter_eq_after_entry] at hrun hrun'
    rw [← hentrance] at hrun'
    exact ⟨_, _, _, hrun, hrun', ⟨rfl, hs⟩, hentry⟩
  · have hrun := run_of_runs_ne_zero hruns capability step s
    have hrun' := run_of_runs_ne_zero (hentrance ▸ hruns) capability step' s'
    rw [enter_eq_after_entry] at hrun hrun'
    obtain ⟨⟨answer, s₁⟩, ⟨_, s₁'⟩, es, hx, hy, ⟨rfl, hs₁⟩, hes⟩ := hstep _ _ (hw.after a.entry)
    rw [hx, World.after_after] at hrun
    rw [hy, World.after_after] at hrun'
    refine ⟨_, _, _, hrun, hrun', ⟨?_, hs₁⟩, hentry.append hes⟩
    rw [release, release, hentrance]

end ProviderDiscovery
