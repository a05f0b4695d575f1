import Mathlib.Data.List.Forall2
import Mathlib.Data.List.Induction
import Mathlib.Data.List.Nodup
import ProviderDiscovery.Proofs.Instances
import ProviderDiscovery.Proofs.Scope.Delegation
import ProviderDiscovery.Proofs.Text.Decimal
import ProviderDiscovery.Proofs.Text.Utf8

/-!
# Texts in memory

A scope in memory takes texts in one after the other, each for a capability, and any text can be a
capability. All of them are kept (`Scope.texts_kept_in_order`): those of one capability are its
resources, in the order in which they came in, and the capabilities are listed in the order of
their first texts. The identifier of a resource puts the scope, the capability and a number behind
each other without any marks of its own, but the number is what stands behind the last number sign.
So no identifier is used twice, even if capabilities hold number signs and slashes
(`Services.resourceId_inj`).
-/

namespace ProviderDiscovery

/-- A resource **holds** a text when reading it gives the bytes of the text, whatever the files
are. -/
def Resource.Holds (r : Resource) (text : String) : Prop :=
  ∀ files, ∃ bytes, r.read files = .ok bytes ∧ Text.Utf8.decode bytes = some text.toList

namespace Services

/-! ### Identifiers -/

/-- The identifier of a text tells its capability and its number. -/
theorem resourceId_inj {scope c d : String} {i j : Nat}
    (h : resourceId scope c i = resourceId scope d j) : c = d ∧ i = j := by
  let front (capability : String) := "mem:" ++ scope ++ "/" ++ servicesPrefix ++ capability
  have htext : ∀ capability index, (resourceId scope capability index).text.toList =
      (front capability).toList ++ '#' :: (toString index).toList := fun capability index => by
    simp [resourceId, front]
  have hsame := congrArg (·.text.toList) h
  simp only [htext] at hsame
  -- A capability may hold number signs, but no number does.
  obtain ⟨hfront, hindex⟩ := Text.append_cons_toString_inj rfl hsame
  refine ⟨?_, hindex⟩
  rw [String.toList_inj] at hfront
  simpa [front] using hfront

/-- The resources of a capability are numbered from zero. -/
theorem map_id_resourcesFor (s : Services) (scope c : String) :
    (s.resourcesFor scope c).map (·.id) =
      (List.range (s.texts c).length).map (resourceId scope c) := by
  rw [resourcesFor, List.map_map, List.range_eq_range', ← List.zipIdx_map_snd 0 (s.texts c),
    List.map_map]
  rfl

/-- The texts of different capabilities, and those of one capability, have identifiers of their
own. -/
theorem nodup_flatMap_resourcesFor (s : Services) (scope : String) {capabilities : List String}
    (h : capabilities.Nodup) :
    ((capabilities.flatMap (s.resourcesFor scope)).map (·.id)).Nodup := by
  rw [List.map_flatMap, List.nodup_flatMap]
  refine ⟨fun c _ => ?_, h.imp fun {c d} hne => ?_⟩
  · rw [map_id_resourcesFor]
    exact List.nodup_range.map fun i j hid => (resourceId_inj hid).2
  · intro id hc hd
    simp only [map_id_resourcesFor] at hc hd
    obtain ⟨i, -, rfl⟩ := List.mem_map.mp hc
    obtain ⟨j, -, hid⟩ := List.mem_map.mp hd
    exact hne (resourceId_inj hid).1.symm

/-! ### What is added -/

theorem addAll_concat (s : Services) (added : List (String × String)) (e : String × String) :
    s.addAll (added ++ [e]) = (s.addAll added).add e.1 e.2 := by
  rw [addAll, List.foldl_append]
  rfl

/-- Capabilities are listed in the order of their first texts. -/
theorem capabilities_addAll (added : List (String × String)) :
    (addAll ∅ added).capabilities = (added.map Prod.fst).eraseDups := by
  -- The induction takes the last addition off: its capability comes in at the end, if at all.
  induction added using List.reverseRecOn with
  | nil => rfl
  | append_singleton added e ih =>
    rw [addAll_concat, capabilities_add, ih, List.map_append, List.map_singleton,
      eraseDups_concat]
    simp only [List.mem_eraseDups]

/-- No capability is listed twice. -/
theorem nodup_capabilities_addAll (added : List (String × String)) :
    (addAll ∅ added).capabilities.Nodup := by
  induction added using List.reverseRecOn with
  | nil => exact .nil
  | append_singleton added e ih =>
    rw [addAll_concat]
    exact Keyed.nodup_keys_put _ _ ih

/-- A capability has texts when some were added for it. -/
theorem texts_addAll_ne_nil_iff {added : List (String × String)} {c : String} :
    (addAll ∅ added).texts c ≠ [] ↔ c ∈ added.map Prod.fst := by
  have hnone : (∅ : Services).texts c = [] := rfl
  rw [texts_addAll, hnone, List.nil_append, ne_eq, List.map_eq_nil_iff, List.filter_eq_nil_iff]
  simp

/-! ### Resources -/

/-- Each resource of a capability holds its text. -/
theorem forall₂_holds_resourcesFor (s : Services) (scope c : String) :
    List.Forall₂ Resource.Holds (s.resourcesFor scope c) (s.texts c) := by
  rw [resourcesFor, List.forall₂_map_left_iff]
  generalize s.texts c = texts
  generalize 0 = first
  induction texts generalizing first with
  | nil => exact .nil
  | cons text rest ih =>
    exact .cons (fun files => ⟨_, rfl, Text.Utf8.decode_encode text⟩) (ih (first + 1))

/-- More texts come behind those that are there. -/
theorem resourcesFor_prefix {s s' : Services} {c : String} (h : s.texts c <+: s'.texts c)
    (scope : String) : s.resourcesFor scope c <+: s'.resourcesFor scope c := by
  obtain ⟨more, hmore⟩ := h
  rw [resourcesFor, resourcesFor, ← hmore, List.zipIdx_append, List.map_append]
  exact List.prefix_append ..

/-- There are resources under the names of the files of the capabilities that have texts, and under
no other names. -/
theorem resources_ne_nil_iff {s : Services} {scope n : String} :
    s.resources scope n ≠ [] ↔ ∃ c, s.texts c ≠ [] ∧ n = servicesPrefix ++ c := by
  constructor
  · intro h
    have hfile : ∃ c, n = servicesPrefix ++ c := by
      by_contra hfile
      have hnone : s.entries.find? (fun e => servicesPrefix ++ e.1 = n) = none :=
        List.find?_eq_none.mpr fun e _ he => hfile ⟨e.1, (of_decide_eq_true he).symm⟩
      rw [resources, hnone] at h
      exact h rfl
    obtain ⟨c, rfl⟩ := hfile
    refine ⟨c, ?_, rfl⟩
    rw [resources_servicesPrefix, resourcesFor] at h
    simpa using h
  · rintro ⟨c, hc, rfl⟩
    rw [resources_servicesPrefix, resourcesFor]
    simpa using hc

end Services

/-- **Texts in memory are all kept, in order and apart.** Put any texts into a scope in memory, each
for any capability. Under the name of a capability's file the scope has one resource for each text
that was added for it, in the order of the additions, and each resource holds its text. Under other
names it has nothing. The resources of all capabilities have different identifiers. More texts come
behind those that are there, which keep their identifiers. And each capability is listed once, in
the order of the first additions. -/
theorem Scope.texts_kept_in_order (name : String) (added : List (String × String)) :
    let found (n : String) := ((∅ : Services).addAll added).resources name n
    let s : Scope := .memory name ((∅ : Services).addAll added) none
    let capabilities := (added.map Prod.fst).eraseDups
    (∀ n w, (s.resources n).run.run w = (.ok (found n), w)) ∧
      (∀ c, List.Forall₂ Resource.Holds (found (servicesPrefix ++ c))
        ((added.filter (·.1 = c)).map (·.2))) ∧
      (∀ n, found n ≠ [] ↔ ∃ c ∈ capabilities, n = servicesPrefix ++ c) ∧
      ((capabilities.flatMap fun c => found (servicesPrefix ++ c)).map (·.id)).Nodup ∧
      (∀ more n, found n <+: ((∅ : Services).addAll (added ++ more)).resources name n) ∧
      capabilities.Nodup ∧ ∀ files, s.serviceNames files = .ok capabilities := by
  intro found s capabilities
  have hfound : ∀ c, found (servicesPrefix ++ c) =
      ((∅ : Services).addAll added).resourcesFor name c := fun c =>
    Services.resources_servicesPrefix _ name c
  have htexts : ∀ (added : List (String × String)) (c : String),
      ((∅ : Services).addAll added).texts c = (added.filter (·.1 = c)).map (·.2) :=
    Services.texts_addAll ∅
  have hnodup := Services.nodup_capabilities_addAll added
  rw [Services.capabilities_addAll] at hnodup
  refine ⟨fun n w => ?_, fun c => ?_, fun n => ?_, ?_, fun more n => ?_, hnodup, fun files => ?_⟩
  · rw [resources, parentResources]
    rfl
  · rw [hfound, ← htexts]
    exact Services.forall₂_holds_resourcesFor _ name c
  · rw [Services.resources_ne_nil_iff]
    simp only [Services.texts_addAll_ne_nil_iff, capabilities, List.mem_eraseDups]
  · simp only [hfound]
    exact Services.nodup_flatMap_resourcesFor _ name hnodup
  · by_cases h : found n = []
    · rw [h]
      exact List.nil_prefix
    · obtain ⟨c, -, rfl⟩ := Services.resources_ne_nil_iff.mp h
      rw [hfound, Services.resources_servicesPrefix]
      refine Services.resourcesFor_prefix ?_ name
      rw [htexts, htexts, List.filter_append, List.map_append]
      exact List.prefix_append ..
  · rw [serviceNames, Services.capabilities_addAll]

end ProviderDiscovery
