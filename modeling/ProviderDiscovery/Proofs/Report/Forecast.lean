import ProviderDiscovery.CommandLine.Execute
import ProviderDiscovery.Proofs.Discovery.Delivery
import ProviderDiscovery.Proofs.Report.Providers
import ProviderDiscovery.Proofs.Scope.Steady

/-!
# The list tells what a pass delivers

A list makes no providers and a pass does, but both go through the same first mentions. If every
name can be made, the list shows exactly the names that the first pass of a discovery makes
providers for, in the same order, and it fails exactly when that pass comes to an error, with the
same one. The command that lists providers prints what the list shows.
-/

namespace ProviderDiscovery

open CommandLine (runList providersListing)

/-- The rows of a list count from one. -/
theorem Report.map_positions (found : List Candidate) :
    (positions found).map (fun row => (row.1, row.2.name)) =
      (List.range' 1 found.length).zip (found.map (·.name)) := by
  refine List.ext_getElem (by simp [positions]) fun i hi hi' => ?_
  simp [positions, Nat.add_comm]

/-- Rows that count from one show names if and only if these were found. -/
theorem Report.map_positions_eq_iff {found : List Candidate} {names : List String} :
    (positions found).map (fun row => (row.1, row.2.name)) =
      (List.range' 1 names.length).zip names ↔ found.map (·.name) = names := by
  have hsnd : ∀ names : List String,
      ((List.range' 1 names.length).zip names).map Prod.snd = names := fun names =>
    List.map_snd_zip (Nat.le_of_eq List.length_range'.symm)
  rw [map_positions]
  constructor
  · intro h
    have hnames := congrArg (List.map Prod.snd) h
    rwa [hsnd, ← List.length_map (·.name), hsnd] at hnames
  · rintro rfl
    rw [List.length_map]

/-- The list and the first pass go through the same mentions. -/
theorem Report.exists_gathered_of_isSteady {scope : Scope} {contract : Contract}
    {resolver : Resolver} {w : World} (hscope : scope.IsSteady w.files)
    (hresolver : resolver.Provides contract w.registry) (capability : CapabilityId) :
    ∃ l, AlwaysAnswers w.files (providers scope capability) (gathered l) ∧
      ((Session.start (.start capability contract scope resolver .unrestricted) w).step
        .iterate).Delivers ((beforeFailure l).map (·.name)) (firstFailure? l) := by
  obtain ⟨located, hlocate⟩ := hscope.locate capability
  cases located with
  | error cause =>
    exact ⟨[.error ⟨capability, .scope cause⟩], alwaysAnswers_providers_of_error hlocate,
      Session.delivers_of_unlocated (p := .start) rfl rfl rfl rfl rfl (hlocate w rfl).1⟩
  | ok rs =>
    have hsearching : Searching (.start capability contract scope resolver .unrestricted) w
        (firstMentions (fun _ => false) (mentions capability w.files rs)) :=
      ⟨rfl, rfl, Authority.permitsFrom_unrestricted w, fun name hname => (by cases hname), rs,
        (hlocate w rfl).1, Candidates.ahead_start ..⟩
    exact ⟨_, alwaysAnswers_providers hlocate,
      Session.delivers_of_searching (p := .start) rfl rfl rfl hsearching hresolver⟩

/-- The command that lists providers prints the list. -/
theorem Report.run_runList_of_ok {scope : Scope} {capability : CapabilityId} {v : World}
    {found : List Candidate} (h : ((providers scope capability).run v).1 = .ok found)
    (json : Bool) :
    ((runList scope capability.text json).run v).1 =
      .line (providersListing capability.text found json) := by
  rw [runList, Action.run_bind, h]
  rfl

/-- It fails as the list does. -/
theorem Report.run_runList_of_error {scope : Scope} {capability : CapabilityId} {v : World}
    {e : DiscoveryError} (h : ((providers scope capability).run v).1 = .error e) (json : Bool) :
    ((runList scope capability.text json).run v).1 = .failed e.message := by
  rw [runList, Action.run_bind, h]
  rfl

/-- A list shows names if and only if the pass makes providers for them, and it fails if and only if
the pass does. -/
theorem Report.providers_tell_pass {scope : Scope} {contract : Contract} {resolver : Resolver}
    {v w : World} (hfiles : v.files = w.files) (hscope : scope.IsSteady w.files)
    (hresolver : resolver.Provides contract w.registry) (capability : CapabilityId) :
    let listed := ((providers scope capability).run v).1
    let s :=
      (Session.start (.start capability contract scope resolver .unrestricted) w).step .iterate
    (∀ names, (∃ found, listed = .ok found ∧ found.map (·.name) = names) ↔
      s.Delivers names none) ∧
    ∀ e, listed = .error e ↔ ∃ names, s.Delivers names (some e) := by
  intro listed s
  obtain ⟨l, hlist, hpass⟩ := exists_gathered_of_isSteady hscope hresolver capability
  have hlisted : listed = gathered l := (hlist v hfiles).1
  rw [hlisted, gathered]
  cases hfailure : firstFailure? l with
  | none =>
    rw [hfailure] at hpass
    refine ⟨fun names => ⟨?_, fun h => ?_⟩, fun e => ⟨fun h => (by cases h), ?_⟩⟩
    · rintro ⟨found, hfound, rfl⟩
      obtain rfl := Except.ok.inj hfound
      exact hpass
    · obtain ⟨rfl, -⟩ := h.unique hpass
      exact ⟨_, rfl, rfl⟩
    · rintro ⟨names, h⟩
      cases (h.unique hpass).2
  | some e =>
    rw [hfailure] at hpass
    refine ⟨fun names => ⟨?_, fun h => ?_⟩, fun e' => ⟨fun h => ?_, ?_⟩⟩
    · rintro ⟨found, hfound, -⟩
      cases hfound
    · cases (h.unique hpass).2
    · obtain rfl := Except.error.inj h
      exact ⟨_, hpass⟩
    · rintro ⟨names, h⟩
      obtain ⟨-, he⟩ := h.unique hpass
      rw [Option.some.inj he]

/-- **The list tells what a pass delivers.** Let a scope answer the same on every call, and let
every name have a type whose factory for the contract makes a provider. Then the list shows names,
in rows that count from one, if and only if the first pass of a discovery without authority makes
providers for just these names, in this order, and ends without an error. And the list fails if and
only if that pass ends with an error, which is then the same. The command that lists providers
prints candidates of just these names, or it fails with this error. -/
theorem Report.providers_iff_delivers {scope : Scope} {contract : Contract} {resolver : Resolver}
    {v w : World} (hfiles : v.files = w.files) (hscope : scope.IsSteady w.files)
    (hresolver : resolver.Provides contract w.registry) (capability : CapabilityId) :
    let listed := ((providers scope capability).run v).1
    let s :=
      (Session.start (.start capability contract scope resolver .unrestricted) w).step .iterate
    (∀ names,
      (∃ found, listed = .ok found ∧
        (positions found).map (fun row => (row.1, row.2.name)) =
          (List.range' 1 names.length).zip names) ↔
      s.Delivers names none) ∧
    (∀ e, listed = .error e ↔ ∃ names, s.Delivers names (some e)) ∧
    ∀ json,
      let shown := ((runList scope capability.text json).run v).1
      (∀ names, s.Delivers names none → ∃ found, found.map (·.name) = names ∧
        shown = .line (providersListing capability.text found json)) ∧
      ∀ names e, s.Delivers names (some e) → shown = .failed e.message := by
  intro listed s
  obtain ⟨hok, herror⟩ := providers_tell_pass hfiles hscope hresolver capability
  refine ⟨fun names => ?_, herror, fun json => ⟨fun names h => ?_, fun names e h => ?_⟩⟩
  · simp only [map_positions_eq_iff]
    exact hok names
  · obtain ⟨found, hfound, hnames⟩ := (hok names).mpr h
    exact ⟨found, hnames, run_runList_of_ok hfound json⟩
  · exact run_runList_of_error ((herror e).mpr ⟨names, h⟩) json

/-- A resolver that knows a type for every name, made for the name itself. -/
def anyCodec : Resolver :=
  .party ⟨⟨9⟩, fun _ name => some ⟨name, [(⟨"Codec"⟩, ⟨⟨1⟩, name, fun _ => .made⟩)]⟩⟩

/-- The list shows `A`, `B` and `C`, and the pass gets a provider for each of them. -/
theorem Report.providers_twoScope :
    ((providers twoScope ⟨"x.Codec"⟩).run (.fresh ∅ ∅)).1 =
        .ok [⟨"A", ⟨"1"⟩⟩, ⟨"B", ⟨"1"⟩⟩, ⟨"C", ⟨"2"⟩⟩] ∧
      ((Session.start (.start ⟨"x.Codec"⟩ ⟨"Codec"⟩ twoScope anyCodec .unrestricted)
        ((World.fresh ∅ ∅).after [.probed ⟨0⟩])).step .iterate).Delivers ["A", "B", "C"] none := by
  have hlisted : ((providers twoScope ⟨"x.Codec"⟩).run (.fresh ∅ ∅)).1 =
      .ok [⟨"A", ⟨"1"⟩⟩, ⟨"B", ⟨"1"⟩⟩, ⟨"C", ⟨"2"⟩⟩] := rfl
  have hscope : twoScope.IsSteady ∅ := fun name => ⟨.ok twoResources, fun w hw => rfl⟩
  have hresolver : anyCodec.Provides ⟨"Codec"⟩ ∅ := fun asked name =>
    ⟨_, _, rfl, rfl, fun calls => rfl⟩
  obtain ⟨hshown, -, -⟩ := providers_iff_delivers (v := .fresh ∅ ∅)
    (w := (World.fresh ∅ ∅).after [.probed ⟨0⟩]) rfl hscope hresolver ⟨"x.Codec"⟩
  exact ⟨hlisted, (hshown ["A", "B", "C"]).mp ⟨_, hlisted, rfl⟩⟩

end ProviderDiscovery
