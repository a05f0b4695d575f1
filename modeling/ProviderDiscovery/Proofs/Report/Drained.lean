import ProviderDiscovery.Proofs.Candidates.Peeking
import ProviderDiscovery.Proofs.Report.Providers

/-!
# A list is what candidates are drained to

A list goes through resources in a loop of its own. What it answers is what one gets who asks for
candidates until there are no more or one request fails: `drains_start_iff` says so for every scope
and every world, also where the scope answers something else on every call, and of everything that
is done on the way.
-/

namespace ProviderDiscovery

namespace Candidates

/-- Candidates of which the caller knows none are **drained** by requests until one finds no
candidate or fails: what the requests found is the answer, or the failure is. -/
inductive Drains :
    Candidates → World → Except DiscoveryError (List Candidate) → World → Prop where
  | failed {c c' : Candidates} {w w' : World} {e : DiscoveryError}
      (h : (c.next fun _ => false).run w = ((.error e, c'), w')) : Drains c w (.error e) w'
  | ended {c c' : Candidates} {w w' : World}
      (h : (c.next fun _ => false).run w = ((.ok none, c'), w')) : Drains c w (.ok []) w'
  | found {c c' : Candidates} {w w' w'' : World} {candidate : Candidate}
      {answer : Except DiscoveryError (List Candidate)}
      (h : (c.next fun _ => false).run w = ((.ok (some candidate), c'), w'))
      (hrest : Drains c' w' answer w'') : Drains c w (answer.map (candidate :: ·)) w''

/-- Draining has one outcome. -/
theorem Drains.unique {c : Candidates} {w v₁ v₂ : World}
    {answer₁ answer₂ : Except DiscoveryError (List Candidate)} (h₁ : Drains c w answer₁ v₁)
    (h₂ : Drains c w answer₂ v₂) : answer₁ = answer₂ ∧ v₁ = v₂ := by
  induction h₁ generalizing answer₂ v₂ with
  | failed h =>
    cases h₂ with
    | failed h' => cases h.symm.trans h'; exact ⟨rfl, rfl⟩
    | ended h' => cases h.symm.trans h'
    | found h' _ => cases h.symm.trans h'
  | ended h =>
    cases h₂ with
    | failed h' => cases h.symm.trans h'
    | ended h' => cases h.symm.trans h'; exact ⟨rfl, rfl⟩
    | found h' _ => cases h.symm.trans h'
  | found h hrest ih =>
    cases h₂ with
    | failed h' => cases h.symm.trans h'
    | ended h' => cases h.symm.trans h'
    | found h' hrest' =>
      cases h.symm.trans h'
      obtain ⟨rfl, rfl⟩ := ih hrest'
      exact ⟨rfl, rfl⟩

/-! ### One request -/

section

variable {c c' : Candidates} {known : String → Bool} {w w' : World}

/-- A request ends the draining when there is no other candidate. -/
theorem run_next_of_not_found (h : (c.hasNext known).run w = ((.ok false, c'), w')) :
    (c.next known).run w = ((.ok none, c'), w') := by
  obtain ⟨hrun, hsome⟩ := run_next_of_run_hasNext h
  have hnone : c'.upcoming = none := by simpa using hsome
  rw [hrun, handedOut_of_upcoming_eq_none hnone, hnone]

/-- A request hands another candidate out. -/
theorem run_next_of_found {candidate : Candidate}
    (h : (c.hasNext known).run w = ((.ok true, c'), w')) (hu : c'.upcoming = some candidate) :
    (c.next known).run w = ((.ok (some candidate),
      { c' with upcoming := none, returned := c'.returned ++ [candidate.name] }), w') := by
  rw [(run_next_of_run_hasNext h).1, handedOut, hu]

/-- Which names are pending makes no difference to looking through some names. -/
theorem searchPending_pending (pending names : List String) :
    searchPending known { c with pending := pending } names = c.searchPending known names := by
  induction names with
  | nil => rfl
  | cons name rest ih =>
    have hskip : isSkipped { c with pending := pending } known name = c.isSkipped known name := rfl
    rw [searchPending, searchPending, hskip, ih]

/-- A pending name that is skipped makes no difference to a search. -/
theorem search_of_isSkipped {name : String} {rest : List String} (rs : List Resource)
    (hpending : c.pending = name :: rest) (hskip : c.isSkipped known name) :
    search known rs c = search known rs { c with pending := rest } := by
  have hsame : c.searchPending known c.pending =
      searchPending known { c with pending := rest } rest := by
    rw [hpending, searchPending, if_pos hskip]
    exact (searchPending_pending rest rest).symm
  rw [search, search, hsame]

/-- A pending name that is not skipped is found. -/
theorem search_of_not_isSkipped {name : String} {rest : List String} {id : ResourceId}
    (rs : List Resource) (hpending : c.pending = name :: rest) (hcurrent : c.current = some id)
    (hskip : ¬c.isSkipped known name) :
    search known rs c = pure (.ok true,
      { c with pending := rest, upcoming := some ⟨name, id⟩, unread := some rs }) := by
  have hfound : c.searchPending known c.pending =
      (true, { c with pending := rest, upcoming := some ⟨name, id⟩ }) := by
    rw [hpending, searchPending, if_neg hskip, hcurrent]
  rw [search, hfound]
  rfl

end

end Candidates

namespace Report

open Candidates

/-- Candidates that have been drained of some and hold names of one resource. -/
structure Holds (c : Candidates) (capability : CapabilityId) (id : ResourceId)
    (names : List String) (found : List Candidate) : Prop where
  capability_eq : c.capability = capability
  current_eq : names ≠ [] → c.current = some id
  pending_eq : c.pending = names
  upcoming_eq : c.upcoming = none
  returned_eq : c.returned = found.map (·.name)

/-- A name is skipped if it was found. -/
theorem Holds.isSkipped_eq {c : Candidates} {capability : CapabilityId} {id : ResourceId}
    {names : List String} {found : List Candidate} (h : Holds c capability id names found)
    (name : String) : c.isSkipped (fun _ => false) name = isFound found name := by
  rw [Bool.eq_iff_iff]
  simp [isSkipped, isFound, h.returned_eq]

/-- From these names and resources on, what candidates are drained to is **gathered** by the list
behind what was found, and the same is done in the world. -/
def Gathers (capability : CapabilityId) (rs : List Resource) (id : ResourceId)
    (names : List String) (found : List Candidate) : Prop :=
  ∀ (c c₀ : Candidates) (w w₀ : World), Holds c capability id names found →
    (c₀.hasNext fun _ => false).run w₀ = (search (fun _ => false) rs c).run w →
    ∃ answer w', Drains c₀ w₀ answer w' ∧
      (collect capability rs (freshCandidates id found names)).run w = (answer.map (found ++ ·), w')

/-- The names of a resource are gathered one after the other, each once. -/
theorem gathers_of_nil {capability : CapabilityId} {rs : List Resource} {id : ResourceId}
    (hnil : ∀ found, Gathers capability rs id [] found) (names : List String)
    (found : List Candidate) : Gathers capability rs id names found := by
  induction names generalizing found with
  | nil => exact hnil found
  | cons name rest ih =>
    intro c c₀ w w₀ h hrun
    have hcurrent := h.current_eq (List.cons_ne_nil name rest)
    rw [freshCandidates]
    by_cases hskip : c.isSkipped (fun _ => false) name
    · have hfound : found.any (·.name = name) := (h.isSkipped_eq name).symm.trans hskip
      rw [if_pos hfound]
      rw [search_of_isSkipped rs h.pending_eq hskip] at hrun
      exact ih found { c with pending := rest } c₀ w w₀
        ⟨h.capability_eq, fun _ => hcurrent, rfl, h.upcoming_eq, h.returned_eq⟩ hrun
    · have hfound : ¬found.any (·.name = name) := fun hany =>
        hskip ((h.isSkipped_eq name).trans hany)
      rw [if_neg hfound]
      rw [search_of_not_isSkipped rs h.pending_eq hcurrent hskip] at hrun
      -- The name is handed out, and the next request searches on behind it.
      let c' : Candidates :=
        { c with
          pending := rest
          unread := some rs
          upcoming := none
          returned := c.returned ++ [name] }
      have hc' : Holds c' capability id rest (found ++ [⟨name, id⟩]) :=
        ⟨h.capability_eq, fun _ => hcurrent, rfl, rfl, by
          rw [List.map_append, ← h.returned_eq]
          rfl⟩
      obtain ⟨answer, w', hdrains, hcollect⟩ := ih (found ++ [⟨name, id⟩]) c' c' w w hc' rfl
      refine ⟨_, w', .found (run_next_of_found hrun rfl) hdrains, ?_⟩
      rw [hcollect]
      cases answer with
      | error e => rfl
      | ok more => simp [Except.map]

/-- **Draining gathers** what a list collects from resources. -/
theorem gathers (capability : CapabilityId) (rs : List Resource) (id : ResourceId)
    (names : List String) (found : List Candidate) :
    Gathers capability rs id names found := by
  induction rs generalizing id names found with
  | nil =>
    refine gathers_of_nil (fun found => ?_) names found
    intro c c₀ w w₀ h hrun
    rw [run_search_of_not_found [] (by rw [h.pending_eq]; rfl)] at hrun
    simp only at hrun
    refine ⟨.ok [], w, .ended (run_next_of_not_found hrun), ?_⟩
    rw [freshCandidates, Except.map, List.append_nil]
    rfl
  | cons r rest ih =>
    refine gathers_of_nil (fun found => ?_) names found
    intro c c₀ w w₀ h hrun
    rw [run_search_of_not_found (r :: rest) (by rw [h.pending_eq]; rfl)] at hrun
    rw [freshCandidates, collect, Action.run_bind, run_listedNames]
    have hcapability := h.capability_eq
    cases hnames : r.namesIn capability w.files with
    | error e =>
      simp only [hcapability, hnames] at hrun
      exact ⟨.error e, w.after [.opened r], .failed (run_next_of_run_hasNext_error hrun), rfl⟩
    | ok listed =>
      simp only [hcapability, hnames] at hrun
      let c' : Candidates :=
        { c with capability := capability, current := some r.id, pending := listed }
      have hc' : Holds c' capability r.id listed found :=
        ⟨rfl, fun _ => rfl, rfl, h.upcoming_eq, h.returned_eq⟩
      exact ih r.id listed found c' c₀ _ w₀ hc' hrun

/-- The list of a scope is what its candidates are drained to, and the same is done in the
world. -/
theorem drains_start (scope : Scope) (capability : CapabilityId) (w : World) :
    Drains (.start capability scope) w ((providers scope capability).run w).1
      ((providers scope capability).run w).2 := by
  cases hlocate : (scope.locate capability).run.run w with
  | mk located v =>
    rw [providers, Action.run_bind, hlocate]
    cases located with
    | error cause => exact .failed (run_next_of_unlocated _ rfl rfl hlocate)
    | ok rs =>
      have hrun := run_hasNext_of_located (fun _ => false) (c := .start capability scope) rfl rfl
        hlocate
      -- No names are pending at the start, so it does not matter whose they are.
      obtain ⟨answer, w', hdrains, hcollect⟩ := gathers capability rs ⟨""⟩ [] []
        (.start capability scope) (.start capability scope) v w
        ⟨rfl, fun hne => absurd rfl hne, rfl, rfl, rfl⟩ hrun
      have hanswer : answer.map ([] ++ ·) = answer := by cases answer <;> rfl
      rw [freshCandidates, hanswer] at hcollect
      dsimp only
      rwa [hcollect]

/-- **A list is what candidates are drained to.** Take any scope, however it answers, and any world.
Requests for candidates of which none is known, made until one finds none or fails, end with an
answer in a world if and only if the list of the scope does. -/
theorem drains_start_iff {scope : Scope} {capability : CapabilityId} {w w' : World}
    {answer : Except DiscoveryError (List Candidate)} :
    Drains (.start capability scope) w answer w' ↔
      (providers scope capability).run w = (answer, w') := by
  have hdrains := drains_start scope capability w
  constructor
  · intro h
    obtain ⟨hanswer, hworld⟩ := hdrains.unique h
    exact Prod.ext hanswer hworld
  · intro h
    rwa [h] at hdrains

end Report

end ProviderDiscovery
