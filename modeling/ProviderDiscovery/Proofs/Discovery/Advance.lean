import ProviderDiscovery.Discovery
import ProviderDiscovery.Proofs.Acceptance
import ProviderDiscovery.Proofs.Authority
import ProviderDiscovery.Proofs.Candidates.Enumeration

/-!
# One step of a discovery

A step of a discovery hands out at most one name, takes it up, and may keep one provider for it.
`Advanced` says what such a step does whatever the files hold, whatever the factories do and
however the authority behaves: the name is new, its factory is called at most once, and a provider
that is made is kept even if the authority withholds the answer.
-/

namespace ProviderDiscovery

/-- An answer that is let through was given. -/
theorem Authority.eq_ok_of_release {α : Type} {a : Authority} {w : World}
    {capability : CapabilityId} {answer : Except DiscoveryError α} {x : α}
    (h : (a.release w capability answer).bind id = .ok x) : answer = .ok x := by
  unfold release at h
  split at h
  · cases h
  · exact h

namespace Discovery

/-! ### Search and acceptance -/

/-- The **search** of a step hands out at most one name, which is not to be skipped, and nothing
else happens. -/
theorem run_nextCandidate (d : Discovery) (w : World) (hu : d.candidates.upcoming = none) :
    ∃ answer c es, ∃ handed : Option String,
      d.nextCandidate.run w = ((answer, { d with candidates := c }), w.after es) ∧
      (∀ e ∈ es, e.isSearch) ∧ c.capability = d.candidates.capability ∧ c.upcoming = none ∧
      c.returned = d.candidates.returned ++ handed.toList ∧
      (∀ name ∈ handed, d.candidates.isSkipped d.instances.contains name = false) ∧
      ∀ candidate, answer = .ok (some candidate) → handed = some candidate.name := by
  obtain ⟨es, hw, hes⟩ := d.authority.enter_eq_after w
  by_cases hruns : (d.authority.entranceIn w).runs = 0
  · have hrun := Authority.run_of_runs_eq_zero hruns d.capability
      (Candidates.next d.instances.contains) d.candidates
    generalize d.authority.denial (d.authority.entranceIn w) = reason at hrun
    refine ⟨.error ⟨d.capability, .privilegeDenied reason⟩, d.candidates, es, none, ?_, hes, rfl,
      hu, by simp, by simp, by simp⟩
    rw [nextCandidate, Action.run_bind, hrun, hw]
    rfl
  · obtain ⟨answer, c, fs, hnext, hfs, hcapability, -, hu', hreturned, hskipped⟩ :=
      Candidates.run_next_frame d.instances.contains (d.authority.enter w) hu
    have hrun := Authority.run_of_runs_ne_zero hruns d.capability
      (Candidates.next d.instances.contains) d.candidates
    rw [hnext, hw, World.after_after] at hrun
    refine ⟨(d.authority.release w d.capability answer).bind id, c, es ++ fs,
      Candidates.handedName answer, ?_, List.forall_mem_append.mpr ⟨hes, hfs⟩, hcapability,
      hu', hreturned, hskipped, fun candidate hanswer => ?_⟩
    · rw [nextCandidate, Action.run_bind, hrun]
      rfl
    · rw [Authority.eq_ok_of_release hanswer]
      rfl

/-- The **acceptance** of a step calls at most the factory of its name, and a provider that is made
is kept. -/
theorem run_acceptName (d : Discovery) (w : World) {name : String}
    (hname : d.instances.contains name = false) :
    ∃ answer i es, (d.acceptName name).run w = ((answer, { d with instances := i }), w.after es) ∧
      triedNames es = [] ∧ (calledNames es).Sublist [name] ∧
      ((madeProviders es).map Prod.fst).Sublist (calledNames es) ∧
      i.entries = d.instances.entries ++ madeProviders es ∧
      ∀ provider, answer = .ok provider → madeProviders es = [(name, provider)] := by
  obtain ⟨es, hw, hes⟩ := d.authority.enter_eq_after w
  have hunseen : Unseen es := unseen_of_isSearch hes
  by_cases hruns : (d.authority.entranceIn w).runs = 0
  · have hrun := Authority.run_of_runs_eq_zero hruns d.capability
      (accept d.resolver d.contract d.capability name) d.instances
    generalize d.authority.denial (d.authority.entranceIn w) = reason at hrun
    refine ⟨.error ⟨d.capability, .privilegeDenied reason⟩, d.instances, es, ?_, hunseen.tried,
      by simp [hunseen.called], by simp [hunseen.made], by simp [hunseen.made], by simp⟩
    rw [acceptName, Action.run_bind, hrun, hw]
    rfl
  · obtain ⟨asked, calls, fs, haccept, hcalled, hmade, htried⟩ :=
      run_accept d.resolver d.contract d.capability name d.instances (d.authority.enter w)
    have hrun := Authority.run_of_runs_ne_zero hruns d.capability
      (accept d.resolver d.contract d.capability name) d.instances
    generalize d.resolver.verdict d.contract (d.authority.enter w).registry asked calls name = v
      at haccept hcalled hmade
    generalize (d.authority.enter w).constructed.length + 1 = serial at haccept hmade
    obtain ⟨hanswer, hentries⟩ := v.keep_of_contains_eq_false hname d.capability serial
    rw [haccept, hw, World.after_after] at hrun
    refine ⟨(d.authority.release w d.capability
        (v.keep d.capability name serial d.instances).1).bind id,
      (v.keep d.capability name serial d.instances).2, es ++ fs, ?_, ?_, ?_, ?_, ?_,
      fun provider hprovider => ?_⟩
    · rw [acceptName, Action.run_bind, hrun]
      rfl
    · rw [hunseen.triedNames_append, htried]
    · rw [hunseen.calledNames_append, hcalled]
      exact v.called_sublist name
    · rw [hunseen.calledNames_append, hunseen.madeProviders_append, hcalled, hmade]
      exact v.map_fst_made_sublist name serial
    · rw [hunseen.madeProviders_append, hmade, hentries]
    · have hok := Authority.eq_ok_of_release hprovider
      rw [hanswer] at hok
      rw [hunseen.madeProviders_append, hmade, Verdict.made_of_answer hok]

/-! ### The parts of a step -/

/-- A step that gets no candidate has only searched. -/
theorem run_advance_of_none {d d' : Discovery} {w w' : World}
    (h : d.nextCandidate.run w = ((.ok none, d'), w')) :
    d.advance.run w = ((.ok none, d'), w') := by
  rw [advance, Action.run_bind, h]
  rfl

theorem run_advance_of_error {d d' : Discovery} {w w' : World} {e : DiscoveryError}
    (h : d.nextCandidate.run w = ((.error e, d'), w')) :
    d.advance.run w = ((.error e, d'), w') := by
  rw [advance, Action.run_bind, h]
  rfl

/-- A step that gets a candidate takes its name up and accepts it. -/
theorem run_advance_of_candidate {d d' d'' : Discovery} {w : World} {es fs : List Event}
    {candidate : Candidate} {answer : Except DiscoveryError Provider}
    (h : d.nextCandidate.run w = ((.ok (some candidate), d'), w.after es))
    (haccept : (d'.acceptName candidate.name).run
        (w.after (es ++ [.accepting candidate.name candidate.resource])) =
      ((answer, d''), (w.after (es ++ [.accepting candidate.name candidate.resource])).after fs)) :
    d.advance.run w = ((answer.map some, d''),
      w.after (es ++ .accepting candidate.name candidate.resource :: fs)) := by
  rw [World.after_after, List.append_assoc] at haccept
  rw [advance, Action.run_bind, h]
  simp only [Action.run_bind, run_record, World.after_after, haccept]
  rfl

/-! ### The whole step -/

/-- What a **step** of a discovery has done, by its answer and its events. -/
structure Advanced (d : Discovery) (answer : Except DiscoveryError (Option Provider))
    (d' : Discovery) (es : List Event) : Prop where
  /-- Only the instances and the candidates have changed. -/
  setting : d' = { d with instances := d'.instances, candidates := d'.candidates }
  /-- No candidate waits to be handed out. -/
  upcoming : d'.candidates.upcoming = none
  /-- Candidates of the same capability are looked for. -/
  capability : d'.candidates.capability = d.candidates.capability
  /-- At most one name has been handed out; it is new, and no other name was taken up. -/
  handed : ∃ handed : Option String,
    d'.candidates.returned = d.candidates.returned ++ handed.toList ∧
      (∀ name ∈ handed, name ∉ d.candidates.returned) ∧ (triedNames es).Sublist handed.toList
  /-- Only a factory for a name that was taken up has been called. -/
  called : (calledNames es).Sublist (triedNames es)
  /-- Only a factory that was called has made a provider. -/
  made : ((madeProviders es).map Prod.fst).Sublist (calledNames es)
  /-- What was made is kept. -/
  entries : d'.instances.entries = d.instances.entries ++ madeProviders es
  /-- Whoever gets a provider gets the one that was made. -/
  provided : ∀ provider, answer = .ok (some provider) →
    ∃ name, madeProviders es = [(name, provider)]

namespace Advanced

variable {d d' : Discovery} {answer : Except DiscoveryError (Option Provider)} {es : List Event}

/-- Doing nothing is a step without a provider. -/
protected theorem refl (hu : d.candidates.upcoming = none) : Advanced d (.ok none) d [] where
  setting := rfl
  upcoming := hu
  capability := rfl
  handed := ⟨none, by simp, by simp, by simp⟩
  called := by simp
  made := by simp
  entries := by simp
  provided := by simp

/-- Names that have been handed out stay different. -/
theorem nodup_returned (h : Advanced d answer d' es) (hn : d.candidates.returned.Nodup) :
    d'.candidates.returned.Nodup := by
  obtain ⟨handed, hreturned, hnew, -⟩ := h.handed
  rw [hreturned]
  cases handed with
  | none => simpa using hn
  | some name =>
    refine List.nodup_append.mpr ⟨hn, by simp, fun a ha b hb => ?_⟩
    obtain rfl : b = name := by simpa using hb
    rintro rfl
    exact hnew a rfl ha

end Advanced

/-- **A step of a discovery**, under any authority. -/
theorem run_advance (d : Discovery) (w : World) (hu : d.candidates.upcoming = none) :
    ∃ answer d' es, d.advance.run w = ((answer, d'), w.after es) ∧ Advanced d answer d' es := by
  obtain ⟨answer, c, es, handed, hrun, hes, hcapability, hu', hreturned, hskipped, hhanded⟩ :=
    d.run_nextCandidate w hu
  have hunseen : Unseen es := unseen_of_isSearch hes
  have hnew : ∀ name ∈ handed, name ∉ d.candidates.returned := fun name hname hmem => by
    have hskip := hskipped name hname
    simp [Candidates.isSkipped, hmem] at hskip
  have hsearched : ∀ answer : Except DiscoveryError (Option Provider),
      (∀ provider, answer ≠ .ok (some provider)) →
        Advanced d answer { d with candidates := c } es := fun answer hanswer =>
    { setting := rfl
      upcoming := hu'
      capability := hcapability
      handed := ⟨handed, hreturned, hnew, by simp [hunseen.tried]⟩
      called := by simp [hunseen.called]
      made := by simp [hunseen.made]
      entries := by simp [hunseen.made]
      provided := fun provider h => absurd h (hanswer provider) }
  cases answer with
  | error e => exact ⟨.error e, _, es, run_advance_of_error hrun, hsearched _ (by simp)⟩
  | ok found =>
    cases found with
    | none => exact ⟨.ok none, _, es, run_advance_of_none hrun, hsearched _ (by simp)⟩
    | some candidate =>
      obtain rfl := hhanded candidate rfl
      have hname : d.instances.contains candidate.name = false :=
        (Bool.or_eq_false_iff.mp (hskipped candidate.name rfl)).1
      obtain ⟨answer, i, fs, haccept, htried, hcalled, hmade, hentries, hprovided⟩ :=
        run_acceptName { d with candidates := c }
          (w.after (es ++ [.accepting candidate.name candidate.resource])) hname
      refine ⟨answer.map some, { d with instances := i, candidates := c }, _,
        run_advance_of_candidate hrun haccept, rfl, hu', hcapability,
        ⟨some candidate.name, hreturned, hnew, ?_⟩, ?_, ?_, ?_, fun provider hprovider => ?_⟩
      · rw [hunseen.triedNames_append]
        have hnone : (triedNames fs).Sublist [] := by simp [htried]
        exact hnone.cons_cons candidate.name
      · rw [hunseen.calledNames_append, hunseen.triedNames_append]
        change (calledNames fs).Sublist (candidate.name :: triedNames fs)
        rw [htried]
        exact hcalled
      · rw [hunseen.madeProviders_append, hunseen.calledNames_append]
        exact hmade
      · rw [hunseen.madeProviders_append]
        exact hentries
      · rw [hunseen.madeProviders_append]
        cases answer with
        | error e => cases hprovider
        | ok p =>
          obtain rfl : p = provider := Option.some.inj (Except.ok.inj hprovider)
          exact ⟨candidate.name, hprovided p rfl⟩

end Discovery

end ProviderDiscovery
