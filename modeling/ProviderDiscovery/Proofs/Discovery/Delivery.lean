import ProviderDiscovery.Proofs.Discovery.Refinement

/-!
# What a pass delivers when every name can be made

If a resolver knows a type for every name, and the factory of that type always makes a provider,
then a discovery that is permitted every step fails for no name: a pass yields a provider for each
candidate before the first failure, and then that failure, if there is one. `Session.Delivers` says
which names a pass makes providers for and how it ends, and `Session.delivers_of_searching` is the
run of such a pass.
-/

namespace ProviderDiscovery

/-- A resolver **provides** every name for a contract: whenever it is asked, it knows a type whose
factory for the contract always makes a provider. -/
def Resolver.Provides (r : Resolver) (contract : Contract) (registry : Registry) : Prop :=
  ∀ asked name, ∃ type factory, r.typeIn registry asked name = some type ∧
    type.factory? contract = some factory ∧ ∀ calls, factory.outcome calls = .made

theorem Resolver.Provides.verdict_eq {r : Resolver} {contract : Contract} {registry : Registry}
    (h : r.Provides contract registry) (asked : Nat) (calls : Handle → Nat) (name : String) :
    ∃ value, r.verdict contract registry asked calls name = .provided value := by
  obtain ⟨type, factory, htype, hfactory, hmade⟩ := h asked name
  exact ⟨factory.value, by simp only [verdict, htype, hfactory, hmade]⟩

/-! ### One step -/

/-- A candidate gets a provider if every name can be made. -/
theorem Searching.advance_of_provides {d : Discovery} {w : World} {candidate : Candidate}
    {l : List Mention} (h : Searching d w (.ok candidate :: l))
    (hr : d.resolver.Provides d.contract w.registry) :
    ∃ provider d' es, d.advance.run w = ((.ok (some provider), d'), w.after es) ∧
      madeProviders es = [(candidate.name, provider)] ∧
      d'.resolver = d.resolver ∧ d'.contract = d.contract ∧ Searching d' (w.after es) l := by
  obtain ⟨asked, calls, d', es, hrun, hresolver, hcontract, -, hmade, hd⟩ := h.advance_of_ok
  obtain ⟨value, hvalue⟩ := hr.verdict_eq asked calls candidate.name
  rw [hvalue] at hrun hmade
  exact ⟨_, d', es, hrun, hmade, hresolver, hcontract, hd⟩

/-! ### A whole pass -/

/-- The pass in hand **delivers** providers for names, which are made for them one after the
other, and then ends, with an error if one is given. -/
def Session.Delivers (s : Session) (names : List String) (last : Option DiscoveryError) : Prop :=
  ∃ made : List Provider, made.length = names.length ∧ ∀ n,
    (s.after (Operation.requests n)).answers = s.answers ++
      (List.range n).map (fun k => (made.map .ok ++ last.toList.map .error)[k]?) ∧
    madeProviders (s.after (Operation.requests n)).events =
      madeProviders s.events ++ (names.zip made).take n

/-- Answers that end at the first error say which was the last. -/
theorem map_ok_append_error_inj {ε α : Type} {as bs : List α} {e f : Option ε}
    (h : as.map Except.ok ++ e.toList.map .error = bs.map .ok ++ f.toList.map .error) :
    as = bs ∧ e = f := by
  induction as generalizing bs with
  | nil =>
    cases bs with
    | nil => cases e <;> cases f <;> simp_all
    | cons b bs => cases e <;> simp at h
  | cons a as ih =>
    cases bs with
    | nil => cases f <;> simp at h
    | cons b bs =>
      obtain ⟨hhead, htail⟩ := List.cons.inj h
      obtain ⟨rfl, rfl⟩ := ih htail
      exact ⟨by rw [Except.ok.inj hhead], rfl⟩

namespace Session

namespace Delivers

variable {s : Session} {names names' : List String} {last last' : Option DiscoveryError}

/-- A pass delivers for one list of names only, and ends in one way only. -/
theorem unique (h : s.Delivers names last) (h' : s.Delivers names' last') :
    names = names' ∧ last = last' := by
  obtain ⟨made, hlength, hmade⟩ := h
  obtain ⟨made', hlength', hmade'⟩ := h'
  have hyielded : made.map (Except.ok (ε := DiscoveryError)) ++ last.toList.map .error =
      made'.map .ok ++ last'.toList.map .error := by
    refine List.ext_getElem? fun k => ?_
    have hanswers := List.append_cancel_left
      ((hmade (k + 1)).1.symm.trans (hmade' (k + 1)).1)
    exact List.map_inj_left.mp hanswers k (List.mem_range.mpr k.lt_succ_self)
  obtain ⟨rfl, hlast⟩ := map_ok_append_error_inj hyielded
  have hall : ∀ names : List String, (names.zip made).take made.length = names.zip made :=
    fun names => List.take_of_length_le (by rw [List.length_zip]; exact Nat.min_le_right ..)
  have hevents := List.append_cancel_left
    ((hmade made.length).2.symm.trans (hmade' made.length).2)
  rw [hall, hall] at hevents
  refine ⟨?_, hlast⟩
  rw [← List.map_fst_zip (Nat.le_of_eq hlength.symm), hevents,
    List.map_fst_zip (Nat.le_of_eq hlength'.symm)]

/-- A pass that ends at its next step delivers for no name. -/
theorem of_ended {p : Pass} {d : Discovery} {w : World} {es : List Event}
    (hnext : s.next = ⟨d, w, some { p with ended := true },
      s.answers ++ [last.map .error], s.events ++ es⟩)
    (hes : madeProviders es = []) : s.Delivers [] last := by
  refine ⟨[], rfl, fun n => ?_⟩
  cases n with
  | zero => simp [Operation.requests, after]
  | succ n =>
    rw [after_requests_succ, hnext, after_requests_of_ended rfl rfl, map_getElem?_range_succ]
    cases last <;> simp [hes, List.map_const']

/-- A pass that gets a provider for a name delivers it, and then what it delivers from then on. -/
theorem cons {p : Pass} {d : Discovery} {w : World} {es : List Event} {name : String}
    {provider : Provider}
    (hnext : s.next = ⟨d, w, some p, s.answers ++ [some (.ok provider)], s.events ++ es⟩)
    (hes : madeProviders es = [(name, provider)]) (h : s.next.Delivers names last) :
    s.Delivers (name :: names) last := by
  obtain ⟨made, hlength, hmade⟩ := h
  refine ⟨provider :: made, congrArg (· + 1) hlength, fun n => ?_⟩
  cases n with
  | zero => simp [Operation.requests, after]
  | succ n =>
    obtain ⟨hanswers, hevents⟩ := hmade n
    rw [after_requests_succ, hanswers, hevents, map_getElem?_range_succ, hnext]
    simp [hes]

end Delivers

/-- A pass at the end of the instances **delivers a provider for each candidate** before the
first failure, and then that failure. -/
theorem delivers_of_searching {l : List Mention} {s : Session} {p : Pass} (hp : s.pass = some p)
    (hopen : p.ended = false) (hslot : s.discovery.instances.entries[p.position]? = none)
    (h : Searching s.discovery s.world l)
    (hr : s.discovery.resolver.Provides s.discovery.contract s.world.registry) :
    s.Delivers ((beforeFailure l).map (·.name)) (firstFailure? l) := by
  -- The induction follows the mentions: each candidate is one request.
  induction l generalizing s p with
  | nil =>
    obtain ⟨d, es, hrun, hes, -⟩ := h.advance_of_nil
    exact .of_ended (next_of_run hp (Pass.run_next_of_advance hopen hslot hrun)) hes.made
  | cons m rest ih =>
    cases m with
    | error e =>
      obtain ⟨d, es, hrun, hes, -⟩ := h.advance_of_error
      exact .of_ended (next_of_run hp (Pass.run_next_of_advance hopen hslot hrun)) hes.made
    | ok candidate =>
      obtain ⟨provider, d, es, hrun, hes, hresolver, hcontract, hd⟩ := h.advance_of_provides hr
      have hnext := next_of_run hp (Pass.run_next_of_advance hopen hslot hrun)
      refine .cons hnext hes ?_
      rw [hnext]
      refine ih rfl hopen (List.getElem?_eq_none (Nat.le_refl _)) hd ?_
      rw [hresolver, hcontract]
      exact hr

/-- A pass delivers nothing but the failure of its scope if nothing can be located. -/
theorem delivers_of_unlocated {s : Session} {p : Pass} {cause : ScopeError}
    (hp : s.pass = some p) (hopen : p.ended = false)
    (hslot : s.discovery.instances.entries[p.position]? = none)
    (ha : s.discovery.authority = .unrestricted) (hu : s.discovery.candidates.upcoming = none)
    (hr : s.discovery.candidates.unopened s.world = .error cause) :
    s.Delivers [] (some ⟨s.discovery.candidates.capability, .scope cause⟩) := by
  obtain ⟨es, hnext, hes⟩ :=
    Candidates.run_next_of_error s.discovery.instances.contains hu hr
  have hrun := Discovery.run_advance_of_error
    (Discovery.run_nextCandidate_of_unrestricted ha hnext)
  exact .of_ended (next_of_run hp (Pass.run_next_of_advance hopen hslot hrun))
    (unseen_of_isSearch hes).made

end Session

end ProviderDiscovery
