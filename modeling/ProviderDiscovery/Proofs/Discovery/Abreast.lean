import ProviderDiscovery.Proofs.Discovery.Account
import ProviderDiscovery.Proofs.Discovery.Told
import ProviderDiscovery.Proofs.Level
import ProviderDiscovery.Proofs.Report.Providers
import ProviderDiscovery.Proofs.Scope.Steady

/-!
# Steps abreast

What others do changes how often parties have been called, but neither files nor types. Where the
scope and the factories do the same on every call, such numbers only show in the serial numbers of
providers. Steps go `Abreast` when they answer alike in any two worlds of the same files and types,
whatever has been done in each of them. Two discoveries that are the same besides the serial numbers
of their instances go abreast, and so do sessions with them: an operation that leaves files and
types keeps them abreast, and gets replies of which the same is told (`Session.Abreast.step`).
-/

namespace ProviderDiscovery

variable {files : FileTree} {registry : Registry}

/-! ### Steps in two worlds -/

/-- The world **holds** files and types. -/
structure World.Holds (files : FileTree) (registry : Registry) (w : World) : Prop where
  files_eq : w.files = files
  registry_eq : w.registry = registry

theorem World.Holds.after {w : World} (h : w.Holds files registry) (es : List Event) :
    (w.after es).Holds files registry :=
  ⟨h.files_eq, h.registry_eq⟩

/-- Steps go **abreast** on files and types when their answers are related whatever has been done
before each of them, and the worlds go on holding these files and types. -/
def Abreast {α β : Type} (files : FileTree) (registry : Registry) (S : α → β → Prop)
    (x : Action α) (y : Action β) : Prop :=
  ∀ w w' : World, w.Holds files registry → w'.Holds files registry →
    S (x.run w).1 (y.run w').1 ∧ (x.run w).2.Holds files registry ∧
      (y.run w').2.Holds files registry

namespace Abreast

variable {α β γ δ : Type} {S : α → β → Prop} {T : γ → δ → Prop} {x : Action α} {y : Action β}

protected theorem pure {a : α} {b : β} (hab : S a b) :
    Abreast files registry S (pure a : Action α) (pure b : Action β) :=
  fun _ _ hw hw' => ⟨hab, hw, hw'⟩

protected theorem bind {f : α → Action γ} {g : β → Action δ} (hxy : Abreast files registry S x y)
    (hfg : ∀ a b, S a b → Abreast files registry T (f a) (g b)) :
    Abreast files registry T (x >>= f) (y >>= g) := by
  intro w w' hw hw'
  obtain ⟨hab, hx, hy⟩ := hxy w w' hw hw'
  exact hfg _ _ hab _ _ hx hy

/-- Steps that only add to what has been done go abreast when their answers are related. -/
theorem of_doesOnly {P Q : Event → Prop} (hx : DoesOnly P x) (hy : DoesOnly Q y)
    (hS : ∀ w w' : World, w.Holds files registry → w'.Holds files registry →
      S (x.run w).1 (y.run w').1) : Abreast files registry S x y := by
  intro w w' hw hw'
  obtain ⟨es, hworld, -⟩ := hx w
  obtain ⟨es', hworld', -⟩ := hy w'
  refine ⟨hS w w' hw hw', ?_, ?_⟩
  · rw [hworld]
    exact hw.after es
  · rw [hworld']
    exact hw'.after es'

/-- A step whose answer the files determine goes abreast of itself. -/
theorem of_alwaysAnswers {P : Event → Prop} {a : α} (hx : DoesOnly P x)
    (ha : AlwaysAnswers files x a) : Abreast files registry Eq x x :=
  .of_doesOnly hx hx fun w w' hw hw' => (ha w hw.files_eq).1.trans (ha w' hw'.files_eq).1.symm

end Abreast

/-! ### Searches -/

namespace Candidates

variable (known : String → Bool)

/-- A search through resources goes abreast of itself, and stays in its scope. -/
theorem abreast_search (rs : List Resource) (c : Candidates) :
    Abreast files registry (fun a b => a = b ∧ a.2.scope = c.scope)
      (search known rs c) (search known rs c) := by
  -- The induction follows the resources: each one is read alike.
  induction rs generalizing c with
  | nil =>
    have hscope := scope_searchPending known c c.pending
    rw [search]
    generalize c.searchPending known c.pending = searched at hscope ⊢
    obtain ⟨found, c'⟩ := searched
    cases found <;> exact .pure ⟨rfl, hscope⟩
  | cons r rest ih =>
    have hscope := scope_searchPending known c c.pending
    rw [search]
    generalize c.searchPending known c.pending = searched at hscope ⊢
    obtain ⟨found, c'⟩ := searched
    cases found with
    | true => exact .pure ⟨rfl, hscope⟩
    | false =>
      have hread : DoesOnly (fun _ => True) (listedNames c'.capability r) :=
        fun w => ⟨[.opened r], rfl, fun _ _ => trivial⟩
      refine .bind (.of_alwaysAnswers hread (alwaysAnswers_listedNames _ files r)) ?_
      rintro answer _ rfl
      cases answer with
      | error e => exact .pure ⟨rfl, hscope⟩
      | ok names =>
        rw [← hscope]
        exact ih { c' with current := some r.id, pending := names }

variable {c : Candidates} (hc : c.scope.IsSteady files)
include hc

theorem abreast_hasNext :
    Abreast files registry (fun a b => a = b ∧ a.2.scope = c.scope)
      (c.hasNext known) (c.hasNext known) := by
  obtain ⟨located, hlocated⟩ := hc.locate c.capability
  unfold hasNext
  split
  · exact .pure ⟨rfl, rfl⟩
  split
  · exact abreast_search known _ c
  · refine .bind (.of_alwaysAnswers (c.scope.doesOnly_locate c.capability) hlocated) ?_
    rintro answer _ rfl
    cases answer with
    | error cause => exact .pure ⟨rfl, rfl⟩
    | ok rs => exact abreast_search known rs c

/-- In a steady scope a **request for a candidate** goes abreast of itself. -/
theorem abreast_next :
    Abreast files registry (fun a b => a = b ∧ a.2.scope = c.scope)
      (c.next known) (c.next known) := by
  refine (abreast_hasNext known hc).bind ?_
  rintro ⟨answer, c'⟩ _ ⟨rfl, hscope⟩
  rcases answer with e | _ | _
  · exact .pure ⟨rfl, hscope⟩
  · exact .pure ⟨rfl, hscope⟩
  · simp only
    split <;> exact .pure ⟨rfl, hscope⟩

end Candidates

/-! ### Acceptances -/

/-- What is **told** of a table of instances: the names, and of each instance its value. -/
def Instances.told (i : Instances Provider) : List (String × String) := i.entries.map toldSlot

namespace Instances

variable {i i' : Instances Provider}

theorem lookup_told (i : Instances Provider) (name : String) :
    i.told.lookup name = (i.get? name).map Provider.value := by
  rw [told, get?]
  induction i.entries with
  | nil => rfl
  | cons slot rest ih =>
    rw [List.map_cons]
    by_cases hname : name = slot.1
    · rw [Keyed.lookup_cons_of_eq hname, Keyed.lookup_cons_of_eq (e := toldSlot slot) hname]
      rfl
    · rw [Keyed.lookup_cons_of_ne hname, Keyed.lookup_cons_of_ne (e := toldSlot slot) hname, ih]

/-- Tables of which the same is told have instances of the same names. -/
theorem contains_eq_of_told (h : i.told = i'.told) : i.contains = i'.contains := by
  funext name
  have hlookup := congrArg (fun told => (told.lookup name).isSome) h
  simpa only [lookup_told, Option.isSome_map, contains] using hlookup

/-- They stay such tables when a name gets instances of one value. -/
theorem told_insert (h : i.told = i'.told) (name value : String) (serial serial' : Nat) :
    (i.insert name ⟨value, serial⟩).1.value = (i'.insert name ⟨value, serial'⟩).1.value ∧
      (i.insert name ⟨value, serial⟩).2.told = (i'.insert name ⟨value, serial'⟩).2.told := by
  have hlookup := congrArg (List.lookup name) h
  rw [lookup_told, lookup_told] at hlookup
  cases hget : i.get? name with
  | some kept =>
    rw [hget] at hlookup
    obtain ⟨kept', hget', hvalue⟩ := Option.map_eq_some_iff.mp hlookup.symm
    rw [insert_of_get? hget, insert_of_get? hget']
    exact ⟨hvalue.symm, h⟩
  | none =>
    rw [hget] at hlookup
    have hget' : i'.get? name = none := Option.map_eq_none_iff.mp hlookup.symm
    obtain ⟨hkept, hentries⟩ :=
      entries_insert_of_get?_eq_none (a := (⟨value, serial⟩ : Provider)) hget
    obtain ⟨hkept', hentries'⟩ :=
      entries_insert_of_get?_eq_none (a := (⟨value, serial'⟩ : Provider)) hget'
    refine ⟨by rw [hkept, hkept'], ?_⟩
    rw [told, told, hentries, hentries', List.map_append, List.map_append]
    exact congrArg (· ++ [(name, value)]) h

end Instances

/-- Verdicts are followed alike in tables of which the same is told. -/
theorem Verdict.told_keep {i i' : Instances Provider} (h : i.told = i'.told) (v : Verdict)
    (capability : CapabilityId) (name : String) (serial serial' : Nat) :
    toldAnswer (v.keep capability name serial i).1 =
        toldAnswer (v.keep capability name serial' i').1 ∧
      (v.keep capability name serial i).2.told = (v.keep capability name serial' i').2.told := by
  cases v with
  | provided value =>
    obtain ⟨hvalue, htold⟩ := Instances.told_insert h name value serial serial'
    exact ⟨congrArg Except.ok hvalue, htold⟩
  | notFound => exact ⟨rfl, h⟩
  | notAssignable => exact ⟨rfl, h⟩
  | failed cause => exact ⟨rfl, h⟩

/-- An **acceptance** by a steady registry goes abreast of itself. -/
theorem abreast_accept (hregistry : registry.IsSteady) (contract : Contract)
    (capability : CapabilityId) (name : String) {i i' : Instances Provider}
    (h : i.told = i'.told) :
    Abreast files registry (fun a b => toldAnswer a.1 = toldAnswer b.1 ∧ a.2.told = b.2.told)
      (accept .registry contract capability name i)
      (accept .registry contract capability name i') := by
  refine .of_doesOnly (doesOnly_accept _ _ _ _ _) (doesOnly_accept _ _ _ _ _) fun w w' hw hw' => ?_
  obtain ⟨asked, calls, es, hrun, -⟩ := run_accept .registry contract capability name i w
  obtain ⟨asked', calls', es', hrun', -⟩ := run_accept .registry contract capability name i' w'
  rw [hw.registry_eq, hregistry.verdict_eq] at hrun
  rw [hw'.registry_eq, hregistry.verdict_eq] at hrun'
  rw [hrun, hrun']
  exact Verdict.told_keep h ..

/-! ### Discoveries -/

namespace Discovery

/-- What is told of the answer of a step: of a provider, its value. -/
def toldStep : Except DiscoveryError (Option Provider) → Except DiscoveryError (Option String) :=
  Except.map (Option.map Provider.value)

theorem toldStep_map_some (answer : Except DiscoveryError Provider) :
    toldStep (answer.map some) = (toldAnswer answer).map some := by
  cases answer <;> rfl

/-- Discoveries in a steady scope **resemble** each other when they are the same besides the serial
numbers of their instances. -/
structure Resembles (files : FileTree) (d d' : Discovery) : Prop where
  same : d' = { d with instances := d'.instances }
  told : d.instances.told = d'.instances.told
  resolver : d.resolver = .registry
  authority : d.authority = .unrestricted
  steady : d.scope.IsSteady files
  searched : d.candidates.scope = d.scope

/-- A discovery without authority resembles itself at its start. -/
theorem resembles_load {scope : Scope} (hscope : scope.IsSteady files) (capability : CapabilityId)
    (contract : Contract) :
    (load capability contract scope).Resembles files (load capability contract scope) :=
  ⟨rfl, rfl, rfl, rfl, hscope, rfl⟩

namespace Resembles

variable {d d' : Discovery}

theorem nextCandidate (h : d.Resembles files d') :
    Abreast files registry (fun a b => a.1 = b.1 ∧ a.2.Resembles files b.2)
      d.nextCandidate d'.nextCandidate := by
  have hknown := Instances.contains_eq_of_told h.told
  have hsteady : d.candidates.scope.IsSteady files := h.searched ▸ h.steady
  obtain ⟨hsame, htold, hresolver, hauthority, hscope, hsearched⟩ := h
  generalize d'.instances = i' at hsame htold hknown
  subst hsame
  simp only [Discovery.nextCandidate, Authority.run, hauthority, hknown, bind_assoc, pure_bind]
  refine (Candidates.abreast_next i'.contains hsteady).bind ?_
  rintro ⟨answer, c⟩ _ ⟨rfl, hc⟩
  exact .pure ⟨rfl, rfl, htold, hresolver, rfl, hscope, hc.trans hsearched⟩

theorem acceptName (h : d.Resembles files d') (hregistry : registry.IsSteady) (name : String) :
    Abreast files registry (fun a b => toldAnswer a.1 = toldAnswer b.1 ∧ a.2.Resembles files b.2)
      (d.acceptName name) (d'.acceptName name) := by
  obtain ⟨hsame, htold, hresolver, hauthority, hscope, hsearched⟩ := h
  generalize d'.instances = i' at hsame htold
  subst hsame
  simp only [Discovery.acceptName, Authority.run, hauthority, hresolver, bind_assoc, pure_bind]
  refine (abreast_accept hregistry d.contract d.capability name htold).bind ?_
  rintro ⟨answer, i⟩ ⟨answer', i'⟩ ⟨hanswer, hi⟩
  exact .pure ⟨hanswer, rfl, hi, rfl, rfl, hscope, hsearched⟩

/-- A **step** of discoveries that resemble each other goes abreast. -/
theorem advance (h : d.Resembles files d') (hregistry : registry.IsSteady) :
    Abreast files registry (fun a b => toldStep a.1 = toldStep b.1 ∧ a.2.Resembles files b.2)
      d.advance d'.advance := by
  refine h.nextCandidate.bind ?_
  rintro ⟨answer, d₁⟩ ⟨_, d₁'⟩ ⟨rfl, h₁⟩
  rcases answer with e | _ | candidate
  · exact .pure ⟨rfl, h₁⟩
  · exact .pure ⟨rfl, h₁⟩
  · have htaken : DoesOnly (fun _ => True)
        (record (.accepting candidate.name candidate.resource)) := .record trivial
    refine .bind (.of_doesOnly htaken htaken fun _ _ _ _ => rfl) fun _ _ _ => ?_
    refine (h₁.acceptName hregistry candidate.name).bind ?_
    rintro ⟨answer, d₂⟩ ⟨answer', d₂'⟩ ⟨hanswer, h₂⟩
    refine .pure ⟨?_, h₂⟩
    rw [toldStep_map_some, toldStep_map_some, hanswer]

/-- Both may be reloaded. -/
theorem reload (h : d.Resembles files d') : d.reload.Resembles files d'.reload := by
  obtain ⟨hsame, -, hresolver, hauthority, hscope, -⟩ := h
  generalize d'.instances = i' at hsame
  subst hsame
  exact ⟨rfl, rfl, hresolver, hauthority, hscope, rfl⟩

end Resembles

end Discovery

/-- A **request to a pass** goes abreast when the discoveries resemble each other. -/
theorem Pass.abreast_next {d d' : Discovery} (h : d.Resembles files d')
    (hregistry : registry.IsSteady) (p : Pass) :
    Abreast files registry
      (fun a b => a.1.map toldAnswer = b.1.map toldAnswer ∧ a.2.1 = b.2.1 ∧
        a.2.2.Resembles files b.2.2)
      (p.next d) (p.next d') := by
  have hslot := congrArg (·[p.position]?) h.told
  simp only [Instances.told, List.getElem?_map] at hslot
  unfold Pass.next Instances.getIndex?
  split
  · exact .pure ⟨rfl, rfl, h⟩
  cases hget : d.instances.entries[p.position]? with
  | some slot =>
    rw [hget] at hslot
    obtain ⟨slot', hget', hvalue⟩ := Option.map_eq_some_iff.mp hslot.symm
    rw [hget']
    refine .pure ⟨?_, rfl, h⟩
    exact congrArg (fun told : String × String => some (Except.ok told.2)) hvalue.symm
  | none =>
    rw [hget] at hslot
    rw [Option.map_eq_none_iff.mp hslot.symm]
    refine (h.advance hregistry).bind ?_
    rintro ⟨answer, d₁⟩ ⟨answer', d₁'⟩ ⟨hanswer, h₁⟩
    have hsize : d₁.instances.size = d₁'.instances.size := by
      simpa [Instances.told, Instances.size] using congrArg List.length h₁.told
    rcases answer with e | _ | provider <;> rcases answer' with e' | _ | provider'
    all_goals try cases hanswer
    · exact .pure ⟨rfl, rfl, h₁⟩
    · exact .pure ⟨rfl, rfl, h₁⟩
    · have hvalue := Option.some.inj (Except.ok.inj hanswer)
      exact .pure ⟨congrArg (some ∘ Except.ok) hvalue, by rw [hsize], h₁⟩

/-! ### Sessions -/

namespace Session

/-- The **reply** to an operation: that of the pass in hand, if it is asked for its next provider or
asked to remove one. -/
def reply (s : Session) : Operation → List (Option (Except DiscoveryError Provider))
  | .next => s.next.answers.drop s.answers.length
  | .remove => s.pass.toList.map fun _ => some (.error s.discovery.candidates.removal)
  | _ => []

/-- The replies to a run of operations. -/
def replies (s : Session) : List Operation → List (Option (Except DiscoveryError Provider))
  | [] => []
  | op :: rest => s.reply op ++ (s.step op).replies rest

/-- What is **told** of replies: of providers, their values. -/
def toldReplies (replies : List (Option (Except DiscoveryError Provider))) :
    List (Option (Except DiscoveryError String)) :=
  replies.map (Option.map toldAnswer)

theorem next_of_pass_eq_some {s : Session} {p : Pass} (hp : s.pass = some p) :
    let ran := (p.next s.discovery).run s.world
    s.next = ⟨ran.1.2.2, ran.2, some ran.1.2.1, s.answers ++ [ran.1.1],
      s.events ++ ran.2.eventsSince s.world⟩ := by
  rw [next, hp]
  rfl

theorem reply_next_of_pass_eq_some {s : Session} {p : Pass} (hp : s.pass = some p) :
    s.reply .next = [((p.next s.discovery).run s.world).1.1] := by
  rw [reply, next_of_pass_eq_some hp, List.drop_left]

theorem reply_next_of_pass_eq_none {s : Session} (hp : s.pass = none) : s.reply .next = [] := by
  rw [reply, next_of_pass_eq_none hp, List.drop_length]

/-- Sessions are **abreast** when their discoveries resemble each other, their passes have got as
far, and their worlds hold the same files and types. -/
structure Abreast (files : FileTree) (registry : Registry) (s s' : Session) : Prop where
  discovery : s.discovery.Resembles files s'.discovery
  pass : s.pass = s'.pass
  world : s.world.Holds files registry
  world' : s'.world.Holds files registry

namespace Abreast

variable {s s' : Session}

/-- A request to the pass in hand keeps sessions abreast. -/
theorem next (h : s.Abreast files registry s') (hregistry : registry.IsSteady) :
    s.next.Abreast files registry s'.next ∧
      toldReplies (s.reply .next) = toldReplies (s'.reply .next) := by
  cases hp : s.pass with
  | none =>
    have hp' : s'.pass = none := h.pass.symm.trans hp
    rw [next_of_pass_eq_none hp, next_of_pass_eq_none hp', reply_next_of_pass_eq_none hp,
      reply_next_of_pass_eq_none hp']
    exact ⟨h, rfl⟩
  | some p =>
    have hp' : s'.pass = some p := h.pass.symm.trans hp
    obtain ⟨⟨hanswer, hpass, hdiscovery⟩, hworld, hworld'⟩ :=
      Pass.abreast_next h.discovery hregistry p _ _ h.world h.world'
    rw [next_of_pass_eq_some hp, next_of_pass_eq_some hp', reply_next_of_pass_eq_some hp,
      reply_next_of_pass_eq_some hp']
    exact ⟨⟨hdiscovery, congrArg some hpass, hworld, hworld'⟩, congrArg ([·]) hanswer⟩

/-- Each operation keeps sessions abreast, and the same is told of the replies. -/
theorem step (h : s.Abreast files registry s') (hregistry : registry.IsSteady) {op : Operation}
    (hop : op.Leaves files registry) :
    (s.step op).Abreast files registry (s'.step op) ∧
      toldReplies (s.reply op) = toldReplies (s'.reply op) := by
  cases op with
  | iterate => exact ⟨⟨h.discovery, rfl, h.world, h.world'⟩, rfl⟩
  | next => exact h.next hregistry
  | remove =>
    have hremoval : s.discovery.candidates.removal = s'.discovery.candidates.removal := by
      rw [h.discovery.same]
    exact ⟨h, by rw [reply, reply, h.pass, hremoval]⟩
  | reload => exact ⟨⟨h.discovery.reload, rfl, h.world, h.world'⟩, rfl⟩
  | meanwhile files' registry' others =>
    obtain ⟨rfl, rfl⟩ := hop
    exact ⟨⟨h.discovery, h.pass, ⟨rfl, rfl⟩, ⟨rfl, rfl⟩⟩, rfl⟩

end Abreast

end Session

end ProviderDiscovery
