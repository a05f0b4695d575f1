import ProviderDiscovery.Proofs.Discovery.Searching
import ProviderDiscovery.Proofs.Discovery.Session

/-!
# What a discovery finds

When files do not change and each name has one verdict, what a discovery finds can be told in
advance: one failure for each resource that fails, and for each name that is mentioned first its
provider or its error. `finds` computes that list from the mentions in the resources, without a
discovery. `Consumed` relates a discovery to the list: a discovery that has consumed a number of
finds keeps the providers among them, has handed out the names among them, and has the others still
to come. One step of the discovery consumes one find (`Consumed.advance`).
-/

namespace ProviderDiscovery

/-! ### The list of finds -/

/-- A **find** in a walk over resources. -/
inductive Find where
  /-- A resource that fails. -/
  | failure (e : DiscoveryError)
  /-- A name, with its provider or its error. -/
  | named (name : String) (answer : Except DiscoveryError Provider)

namespace Find

/-- The answer that a find gives. -/
def answer : Find → Except DiscoveryError Provider
  | .failure e => .error e
  | .named _ answer => answer

/-- The name that is found. -/
def name? : Find → Option String
  | .failure _ => none
  | .named name _ => some name

/-- The provider that is found, by name. -/
def provided? : Find → Option (String × Provider)
  | .named name (.ok provider) => some (name, provider)
  | _ => none

/-- A provider is found under its name. -/
theorem name?_of_provided? {f : Find} {slot : String × Provider} (h : f.provided? = some slot) :
    f.name? = some slot.1 := by
  cases f with
  | failure e => cases h
  | named name answer =>
    cases answer with
    | error e => cases h
    | ok provider =>
      obtain rfl := Option.some.inj h
      rfl

/-- What a verdict makes is what is found. -/
theorem toList_provided?_named (v : Verdict) (capability : CapabilityId) (name : String)
    (serial : Nat) :
    (named name (v.answer capability name serial)).provided?.toList = v.made name serial := by
  cases v <;> rfl

end Find

/-- The **finds** among mentions, given the verdict on each name and the number of calls that
factories have had before. -/
def finds (capability : CapabilityId) (verdict : String → Verdict) : Nat → List Mention → List Find
  | _, [] => []
  | calls, .error e :: rest => .failure e :: finds capability verdict calls rest
  | calls, .ok candidate :: rest =>
    let v := verdict candidate.name
    .named candidate.name (v.answer capability candidate.name (calls + 1)) ::
      finds capability verdict (calls + (v.called candidate.name).length) rest

/-! ### The part that has been consumed -/

theorem filterMap_singleton {α β : Type} (g : α → Option β) (a : α) :
    [a].filterMap g = (g a).toList := by
  cases h : g a <;> simp [h]

/-- A discovery has **consumed** a number of finds when it keeps their providers, has handed out
their names, and has the other finds still to come. -/
structure Consumed (verdict : String → Verdict) (all : List Find) (i : Nat) (d : Discovery)
    (w : World) : Prop where
  le_length : i ≤ all.length
  entries : d.instances.entries = (all.take i).filterMap Find.provided?
  returned : d.candidates.returned = (all.take i).filterMap Find.name?
  upcoming : d.candidates.upcoming = none
  capability : d.candidates.capability = d.capability
  permits : d.authority.PermitsFrom w
  verdict_eq : ∀ asked calls name,
    d.resolver.verdict d.contract w.registry asked calls name = verdict name
  ahead : ∃ rs, d.candidates.unopened (w.after d.authority.entry) = .ok rs ∧
    finds d.capability verdict w.constructed.length
      (d.candidates.ahead (fun _ => false) w.files rs) = all.drop i

namespace Consumed

variable {verdict : String → Verdict} {all : List Find} {i : Nat} {d : Discovery} {w : World}

/-- The instances are instances of names that were handed out. -/
theorem mem_returned (h : Consumed verdict all i d w) {name : String}
    (hname : d.instances.contains name) : name ∈ d.candidates.returned := by
  have hmem : name ∈ d.instances.entries.map Prod.fst := Instances.contains_iff.mp hname
  rw [h.entries] at hmem
  obtain ⟨slot, hslot, rfl⟩ := List.mem_map.mp hmem
  obtain ⟨f, hf, hprovided⟩ := List.mem_filterMap.mp hslot
  rw [h.returned]
  exact List.mem_filterMap.mpr ⟨f, hf, Find.name?_of_provided? hprovided⟩

/-- The next find is consumed when its name has been handed out, its provider is kept, and the
finds behind it are still to come. -/
theorem succ (h : Consumed verdict all i d w) {f : Find} {rest : List Find}
    (hdrop : all.drop i = f :: rest) {t : Instances Provider} {c : Candidates}
    {rs : List Resource} {es : List Event}
    (hentries : t.entries = d.instances.entries ++ f.provided?.toList)
    (hreturned : c.returned = d.candidates.returned ++ f.name?.toList)
    (hupcoming : c.upcoming = none) (hcapability : c.capability = d.candidates.capability)
    (hunread : c.unread = some rs)
    (hfinds : finds d.capability verdict (w.after es).constructed.length
      (c.ahead (fun _ => false) w.files rs) = rest) :
    Consumed verdict all (i + 1) { d with instances := t, candidates := c } (w.after es) := by
  have hlt : i < all.length := by
    rcases Nat.lt_or_ge i all.length with hlt | hge
    · exact hlt
    · rw [List.drop_eq_nil_of_le hge] at hdrop
      cases hdrop
  rw [List.drop_eq_getElem_cons hlt] at hdrop
  obtain ⟨hf, hrest⟩ := List.cons.inj hdrop
  have htake : all.take (i + 1) = all.take i ++ [f] := by
    rw [← hf, List.take_append_getElem]
  refine ⟨hlt, ?_, ?_, hupcoming, hcapability.trans h.capability, h.permits.after es,
    h.verdict_eq, rs,
    ?_, ?_⟩
  · rw [htake, List.filterMap_append, ← h.entries, filterMap_singleton]
    exact hentries
  · rw [htake, List.filterMap_append, ← h.returned, filterMap_singleton]
    exact hreturned
  · rw [Candidates.unopened, hunread]
  · rw [hrest]
    exact hfinds

/-- The discovery is searching through mentions whose finds are the ones still to come. -/
theorem searching (h : Consumed verdict all i d w) :
    ∃ l, Searching d w l ∧ finds d.capability verdict w.constructed.length l = all.drop i := by
  obtain ⟨rs, hr, hfinds⟩ := h.ahead
  exact ⟨_, ⟨h.upcoming, h.capability, h.permits, fun _ => h.mem_returned, rs, hr, rfl⟩, hfinds⟩

/-- The answer of a step that consumes a find, if one is left. -/
def stepAnswer : Option Find → Except DiscoveryError (Option Provider)
  | none => .ok none
  | some f => f.answer.map some

/-- **A step consumes the next find**, if one is left. -/
theorem advance (h : Consumed verdict all i d w) :
    ∃ d' es, d.advance.run w = ((stepAnswer all[i]?, d'), w.after es) ∧
      Consumed verdict all (i + all[i]?.toList.length) d' (w.after es) := by
  obtain ⟨l, hl, hfinds⟩ := h.searching
  obtain ⟨c, es, hsearch, hunseen, hupcoming, hcapability, hreturned, hfresh, rs, hunread,
    hahead⟩ := hl.search
  have hfind : all[i]? = (all.drop i).head? := by rw [List.head?_drop]
  rw [← hfinds] at hfind
  cases l with
  | nil =>
    change all[i]? = none at hfind
    rw [hfind]
    refine ⟨{ d with candidates := c }, es, Discovery.run_advance_of_none hsearch,
      ⟨h.le_length, h.entries, ?_, hupcoming, hcapability.trans h.capability,
        h.permits.after es, h.verdict_eq, rs, ?_, ?_⟩⟩
    · exact hreturned.trans ((List.append_nil _).trans h.returned)
    · rw [Candidates.unopened, hunread]
    · rw [World.files_after, hahead]
      exact hfinds
  | cons m l =>
    cases m with
    | error e =>
      change all[i]? = some (.failure e) at hfind
      rw [hfind]
      refine ⟨{ d with candidates := c }, es, Discovery.run_advance_of_error hsearch,
        h.succ hfinds.symm (List.append_nil _).symm hreturned hupcoming hcapability hunread ?_⟩
      rw [World.length_constructed_after, hunseen.called, hahead]
      rfl
    | ok candidate =>
      have hserial : (w.after (es ++
          [.accepting candidate.name candidate.resource])).constructed.length =
            w.constructed.length := by
        rw [World.length_constructed_after, hunseen.calledNames_append]
        rfl
      obtain ⟨asked, calls, t, fs, haccept, hentries, hcalled, -, -⟩ :=
        Discovery.run_acceptName_of_permits (d := { d with candidates := c })
          (h.permits (es ++ [.accepting candidate.name candidate.resource]))
          (hfresh candidate rfl)
      rw [World.registry_after, h.verdict_eq] at haccept hentries hcalled
      rw [hserial] at haccept hentries
      change all[i]? = some (.named candidate.name ((verdict candidate.name).answer
        d.capability candidate.name (w.constructed.length + 1))) at hfind
      rw [hfind]
      refine ⟨{ d with instances := t, candidates := c }, _,
        Discovery.run_advance_of_candidate hsearch haccept,
        h.succ hfinds.symm ?_ hreturned hupcoming hcapability hunread ?_⟩
      · rw [Find.toList_provided?_named]
        exact hentries
      · have hcalls : calledNames (.accepting candidate.name candidate.resource :: fs) =
            (verdict candidate.name).called candidate.name := hcalled
        rw [World.length_constructed_after, hunseen.calledNames_append, hcalls, hahead]
        rfl

end Consumed

end ProviderDiscovery
