import ProviderDiscovery.Proofs.Discovery.Advance

/-!
# Searching

A discovery whose authority permits every step hands out, one after the other, the first mentions
in what it has still to read. `Searching` names the list of them, and `Searching.search` says what
one search does: it takes the head of the list, and whatever becomes of the name that was found,
the tail is still to come.
-/

namespace ProviderDiscovery

/-! ### Steps that are permitted -/

namespace Discovery

variable {d : Discovery} {w w' : World}

theorem run_nextCandidate_of_permits {c : Candidates}
    {answer : Except DiscoveryError (Option Candidate)}
    (ha : (d.authority.entranceIn w).Permits)
    (hrun : (Candidates.next d.instances.contains d.candidates).run (w.after d.authority.entry) =
      ((answer, c), w')) :
    d.nextCandidate.run w = ((answer, { d with candidates := c }), w') := by
  rw [nextCandidate, Action.run_bind, Authority.run_of_permits ha, hrun]
  rfl

/-- Without an authority the search of a step is the search of the candidates. -/
theorem run_nextCandidate_of_unrestricted {c : Candidates}
    {answer : Except DiscoveryError (Option Candidate)} (ha : d.authority = .unrestricted)
    (hrun : (Candidates.next d.instances.contains d.candidates).run w = ((answer, c), w')) :
    d.nextCandidate.run w = ((answer, { d with candidates := c }), w') := by
  rw [nextCandidate, Action.run_bind, ha, Authority.run_unrestricted, hrun]
  rfl

/-- A search that does not fail was permitted, and is the search of the candidates. -/
theorem permits_of_run_nextCandidate {d' : Discovery} {found : Option Candidate}
    (h : d.nextCandidate.run w = ((.ok found, d'), w')) :
    (d.authority.entranceIn w).Permits ∧ ∃ c, d' = { d with candidates := c } ∧
      (Candidates.next d.instances.contains d.candidates).run (w.after d.authority.entry) =
        ((.ok found, c), w') := by
  rw [nextCandidate, Action.run_bind] at h
  by_cases hruns : (d.authority.entranceIn w).runs = 0
  · rw [Authority.run_of_runs_eq_zero hruns] at h
    cases h
  · rw [Authority.run_of_runs_ne_zero hruns, Authority.release, Authority.enter_eq_after_entry] at h
    cases hrefusal : (d.authority.entranceIn w).refusal with
    | some reason =>
      rw [hrefusal] at h
      cases h
    | none =>
      rw [hrefusal] at h
      obtain ⟨hpair, rfl⟩ := Prod.mk.inj h
      obtain ⟨hanswer, rfl⟩ := Prod.mk.inj hpair
      refine ⟨⟨hruns, hrefusal⟩, _, rfl, ?_⟩
      exact Prod.ext (Prod.ext hanswer rfl) rfl

/-- A name without an instance is accepted by the verdict on it. -/
theorem run_acceptName_of_permits (ha : (d.authority.entranceIn w).Permits) {name : String}
    (hname : d.instances.contains name = false) :
    ∃ asked calls t es,
      let v := d.resolver.verdict d.contract w.registry asked calls name
      let serial := w.constructed.length + 1
      (d.acceptName name).run w =
          ((v.answer d.capability name serial, { d with instances := t }), w.after es) ∧
        t.entries = d.instances.entries ++ v.made name serial ∧
        calledNames es = v.called name ∧ madeProviders es = v.made name serial ∧
        triedNames es = [] := by
  have hunseen : Unseen d.authority.entry :=
    unseen_of_isSearch fun _ => Authority.isSearch_of_mem_entry
  obtain ⟨asked, calls, es, haccept, hcalled, hmade, htried⟩ :=
    run_accept d.resolver d.contract d.capability name d.instances (w.after d.authority.entry)
  rw [World.length_constructed_after, hunseen.called] at haccept hmade
  obtain ⟨hanswer, hentries⟩ := Verdict.keep_of_contains_eq_false hname
    (d.resolver.verdict d.contract w.registry asked calls name) d.capability
    (w.constructed.length + 1)
  refine ⟨asked, calls, _, d.authority.entry ++ es, ?_, hentries, ?_, ?_, ?_⟩
  · rw [acceptName, Action.run_bind, Authority.run_of_permits ha, haccept, World.after_after,
      ← hanswer]
    rfl
  · rw [hunseen.calledNames_append]
    exact hcalled
  · rw [hunseen.madeProviders_append]
    exact hmade
  · rw [hunseen.triedNames_append]
    exact htried

end Discovery

/-! ### What is still to come -/

/-- Names that are known because they were handed out make no difference to what is still to
come. -/
theorem Candidates.ahead_of_known {known : String → Bool} {c : Candidates}
    (h : ∀ name, known name → name ∈ c.returned) (files : FileTree) (rs : List Resource) :
    c.ahead known files rs = c.ahead (fun _ => false) files rs := by
  have hskip : c.isSkipped known = c.isSkipped fun _ => false := isSkipped_of_known h
  rw [ahead, ahead, hskip]

/-- A discovery whose authority permits every step is **searching** through a list of mentions when
they are still to come and its instances are instances of names that were handed out. -/
structure Searching (d : Discovery) (w : World) (l : List Mention) : Prop where
  upcoming : d.candidates.upcoming = none
  capability : d.candidates.capability = d.capability
  permits : d.authority.PermitsFrom w
  returned : ∀ name, d.instances.contains name → name ∈ d.candidates.returned
  ahead : ∃ rs, d.candidates.unopened (w.after d.authority.entry) = .ok rs ∧
    d.candidates.ahead (fun _ => false) w.files rs = l

namespace Searching

variable {d : Discovery} {w : World} {l : List Mention}

/-- A **search** takes the head of the list. A name that it finds has no instance, and the tail is
still to come when at most that name has got one. -/
theorem search (h : Searching d w l) :
    ∃ c es, d.nextCandidate.run w =
        ((Mention.answer l.head?, { d with candidates := c }), w.after es) ∧
      Unseen es ∧ c.upcoming = none ∧ c.capability = d.candidates.capability ∧
      c.returned = d.candidates.returned ++ (l.head?.bind Mention.name?).toList ∧
      (∀ candidate, l.head? = some (.ok candidate) →
        d.instances.contains candidate.name = false) ∧
      ∃ rs, c.unread = some rs ∧ c.ahead (fun _ => false) w.files rs = l.tail := by
  obtain ⟨rs, hr, hahead⟩ := h.ahead
  rw [← Candidates.ahead_of_known h.returned] at hahead
  obtain ⟨c, es, hnext, hes, hc⟩ := Candidates.run_next d.instances.contains h.upcoming hr
  rw [World.files_after, hahead] at hnext hc
  obtain ⟨rs', hunread, htail⟩ := hc.ahead
  rw [World.after_after] at hnext
  have hsearch : ∀ e ∈ d.authority.entry ++ es, e.isSearch :=
    List.forall_mem_append.mpr ⟨fun _ => Authority.isSearch_of_mem_entry, hes⟩
  refine ⟨c, _, Discovery.run_nextCandidate_of_permits h.permits.permits hnext,
    unseen_of_isSearch hsearch, hc.upcoming, hc.capability, hc.returned, fun candidate hhead => ?_,
    rs', hunread, ?_⟩
  · rw [← hahead] at hhead
    have hskip := skip_eq_false_of_mem_firstMentions (List.mem_of_head? hhead)
    exact (Bool.or_eq_false_iff.mp hskip).1
  · rw [← htail]
    refine (Candidates.ahead_of_known (fun name hname => ?_) w.files rs').symm
    rw [hc.returned]
    exact List.mem_append_left _ (h.returned name hname)

/-- The mentions behind the head are still to come when the search has taken it and at most its
name has got an instance. -/
theorem tail (h : Searching d w l) {c : Candidates} {i : Instances Provider} {rs : List Resource}
    (hupcoming : c.upcoming = none) (hcapability : c.capability = d.candidates.capability)
    (hreturned : c.returned = d.candidates.returned ++ (l.head?.bind Mention.name?).toList)
    (hunread : c.unread = some rs) (hahead : c.ahead (fun _ => false) w.files rs = l.tail)
    {made : List (String × Provider)} (hentries : i.entries = d.instances.entries ++ made)
    (hmade : ∀ slot ∈ made, slot.1 ∈ l.head?.bind Mention.name?) (es : List Event) :
    Searching { d with instances := i, candidates := c } (w.after es) l.tail := by
  refine ⟨hupcoming, hcapability.trans h.capability, h.permits.after es, fun name hname => ?_, rs,
    ?_, hahead⟩
  · change name ∈ c.returned
    have hmem : name ∈ i.entries.map Prod.fst := Instances.contains_iff.mp hname
    rw [hentries, List.map_append] at hmem
    rw [hreturned]
    rcases List.mem_append.mp hmem with hkept | hnew
    · exact List.mem_append_left _ (h.returned name (Instances.contains_iff.mpr hkept))
    · obtain ⟨slot, hslot, rfl⟩ := List.mem_map.mp hnew
      exact List.mem_append_right _ (Option.mem_toList.mpr (hmade slot hslot))
  · rw [Candidates.unopened, hunread]

/-- A step through nothing finds nothing. -/
theorem advance_of_nil (h : Searching d w []) :
    ∃ d' es, d.advance.run w = ((.ok none, d'), w.after es) ∧ Unseen es ∧
      Searching d' (w.after es) [] := by
  obtain ⟨c, es, hsearch, hunseen, hupcoming, hcapability, hreturned, -, rs, hunread, hahead⟩ :=
    h.search
  exact ⟨_, es, Discovery.run_advance_of_none hsearch, hunseen,
    h.tail hupcoming hcapability hreturned hunread hahead (List.append_nil _).symm nofun es⟩

/-- A failure is the answer of its step. -/
theorem advance_of_error {e : DiscoveryError} (h : Searching d w (.error e :: l)) :
    ∃ d' es, d.advance.run w = ((.error e, d'), w.after es) ∧ Unseen es ∧
      Searching d' (w.after es) l := by
  obtain ⟨c, es, hsearch, hunseen, hupcoming, hcapability, hreturned, -, rs, hunread, hahead⟩ :=
    h.search
  exact ⟨_, es, Discovery.run_advance_of_error hsearch, hunseen,
    h.tail hupcoming hcapability hreturned hunread hahead (List.append_nil _).symm nofun es⟩

/-- A candidate is taken up, and gets the answer of the verdict on its name. -/
theorem advance_of_ok {candidate : Candidate} (h : Searching d w (.ok candidate :: l)) :
    ∃ asked calls d' es,
      let v := d.resolver.verdict d.contract w.registry asked calls candidate.name
      let serial := w.constructed.length + 1
      d.advance.run w =
          (((v.answer d.capability candidate.name serial).map some, d'), w.after es) ∧
        d'.resolver = d.resolver ∧ d'.contract = d.contract ∧
        triedNames es = [candidate.name] ∧ madeProviders es = v.made candidate.name serial ∧
        Searching d' (w.after es) l := by
  obtain ⟨c, es, hsearch, hunseen, hupcoming, hcapability, hreturned, hfresh, rs, hunread,
    hahead⟩ := h.search
  have hserial : (w.after (es ++
      [.accepting candidate.name candidate.resource])).constructed.length =
        w.constructed.length := by
    rw [World.length_constructed_after, hunseen.calledNames_append]
    rfl
  obtain ⟨asked, calls, i, fs, haccept, hentries, -, hmade, htried⟩ :=
    Discovery.run_acceptName_of_permits (d := { d with candidates := c })
      (h.permits (es ++ [.accepting candidate.name candidate.resource])) (hfresh candidate rfl)
  rw [World.registry_after, hserial] at haccept hentries hmade
  refine ⟨asked, calls, _, _, Discovery.run_advance_of_candidate hsearch haccept, rfl, rfl, ?_, ?_,
    h.tail hupcoming hcapability hreturned hunread hahead hentries (fun slot hslot => ?_) _⟩
  · rw [hunseen.triedNames_append]
    exact congrArg (candidate.name :: ·) htried
  · rw [hunseen.madeProviders_append]
    exact hmade
  · have hname := (Verdict.map_fst_made_sublist _ candidate.name _).subset
      (List.mem_map_of_mem (f := Prod.fst) hslot)
    exact congrArg some (List.mem_singleton.mp ((Verdict.called_sublist _ _).subset hname)).symm

end Searching

end ProviderDiscovery
