import ProviderDiscovery.Proofs.Level

/-!
# The root of a scope

The outermost ancestor of a scope comes first in delegation order, whatever the scopes are that hang
below it. So what a scope has under a name begins with what its root has, and if the root fails the
scope fails with the same error. Nothing is assumed of the files and the parties: the scope asks its
root in the same world as the root alone would be asked in.
-/

namespace ProviderDiscovery

namespace Scope

/-- The outermost ancestor of a scope has no parent. -/
theorem parent?_root (s : Scope) : s.root.parent? = none := by
  fun_induction root s with
  | case1 name services parent ih => exact ih
  | case2 name entries parent ih => exact ih
  | case3 p services parent ih => exact ih
  | case4 s hmemory hclassPath hcustom =>
    cases hparent : s.parent? with
    | none => rfl
    | some parent =>
      cases s with
      | memory name services outer =>
        exact absurd (congrArg _ hparent) (hmemory name services parent)
      | classPath name entries outer =>
        exact absurd (congrArg _ hparent) (hclassPath name entries parent)
      | custom p services outer =>
        exact absurd (congrArg _ hparent) (hcustom p services parent)
      | directory root => cases hparent
      | archive path => cases hparent

/-- A scope whose parents are **consulted**: each parent is that of a scope in memory or of a class
path. What a party makes of a parent is up to the party. -/
inductive Consults : Scope → Prop where
  /-- No parent at all. -/
  | outermost {s : Scope} (h : s.parent? = none) : Consults s
  /-- The parent of a scope in memory. -/
  | memory {name : String} {services : Services} {parent : Scope} (h : Consults parent) :
      Consults (.memory name services (some parent))
  /-- The parent of a class path. -/
  | classPath {name : String} {entries : List Scope} {parent : Scope} (h : Consults parent) :
      Consults (.classPath name entries (some parent))

/-- A scope without a parent is its own root. -/
theorem root_of_parent?_eq_none {s : Scope} (h : s.parent? = none) : s.root = s := by
  fun_cases root s with
  | case1 => cases h
  | case2 => cases h
  | case3 => cases h
  | case4 => rfl

/-- The leaves of the root come before the others. -/
theorem Consults.leaves_root_prefix_leaves {s : Scope} (h : s.Consults) :
    s.root.leaves <+: s.leaves := by
  -- The induction follows the parents: each puts its leaves before those of its child.
  induction h with
  | outermost hparent =>
    exact ⟨[], by rw [List.append_nil, root_of_parent?_eq_none hparent]⟩
  | @memory name services parent h ih =>
    rw [root]
    refine ih.trans ⟨[.memory name services none], ?_⟩
    rw [leaves, parentLeaves]
  | @classPath name entries parent h ih =>
    rw [root]
    refine ih.trans ⟨entryLeaves entries, ?_⟩
    rw [leaves, parentLeaves]

namespace Consults

variable {s : Scope} (h : s.Consults)
include h

/-- A scope asks its root, and then what is not the root's. -/
theorem exists_resources_eq : ∃ others : List Scope, ∀ name,
    s.resources name = (do
      let found ← s.root.resources name
      let more ← (do let found ← others.mapM (resources name); return found.flatten)
      return found ++ more) := by
  obtain ⟨others, hleaves⟩ := h.leaves_root_prefix_leaves
  refine ⟨others, fun name => ?_⟩
  rw [resources_eq_mapM_leaves, ← hleaves, mapM_resources_append, ← resources_eq_mapM_leaves]

/-- **The resources of a scope begin with those of its root**, and a failure of the root is the
failure of the scope. -/
theorem resources_root (name : String) (w : World) :
    (∀ rs w', (s.resources name).run.run w = (.ok rs, w') →
      ∃ rs₀ w₀, (s.root.resources name).run.run w = (.ok rs₀, w₀) ∧ rs₀ <+: rs) ∧
    ∀ cause w', (s.root.resources name).run.run w = (.error cause, w') →
      (s.resources name).run.run w = (.error cause, w') := by
  obtain ⟨others, hresources⟩ := h.exists_resources_eq
  have hrun := run_attempt_bind (s.root.resources name) (fun found => (do
    let more ← (do let found ← others.mapM (resources name); return found.flatten)
    return found ++ more)) w
  rw [← hresources] at hrun
  rw [hrun]
  cases hroot : (s.root.resources name).run.run w with
  | mk answer w₀ =>
    cases answer with
    | error cause => exact ⟨nofun, fun cause' w' h => h⟩
    | ok rs₀ =>
      refine ⟨fun rs w' h => ⟨rs₀, w₀, rfl, ?_⟩, nofun⟩
      simp only at h
      rw [run_attempt_bind] at h
      generalize (do let found ← others.mapM (resources name); return found.flatten :
        Attempt ScopeError (List Resource)).run.run w₀ = rest at h
      obtain ⟨e | more, w₁⟩ := rest
      · cases h
      · obtain ⟨hanswer, -⟩ := Prod.mk.inj h
        exact ⟨more, Except.ok.inj hanswer⟩

end Consults

/-- Which scope was asked before makes no difference to what a scope answers. -/
theorem resources_after_asked (s : Scope) (name asked asked' : String) (w : World) :
    ((s.resources name).run.run (w.after [.asked asked name])).1 =
      ((s.resources name).run.run (w.after [.asked asked' name])).1 := by
  have hquiet : ∀ title, ∀ e ∈ [Event.asked title name], ∀ h, e.calls h → ¬True := by
    intro title e he h hcalls
    rw [List.mem_singleton.mp he] at hcalls
    cases hcalls
  have hself : w.Level (fun _ => True) (fun _ => True) w := .refl trivial
  have hasked := hself.after_left (hquiet asked) rfl
  have hlevel := (hasked.symm.after_left (hquiet asked') rfl).symm
  obtain ⟨a, b, es, hrun, hrun', rfl, -⟩ :=
    even_resources name s (fun _ _ _ _ => trivial) _ _ hlevel
  rw [hrun, hrun']

/-- **What a scope locates begins with what its root locates**, and a failure of the root is the
failure of the scope. -/
theorem Consults.locate_root {s : Scope} (h : s.Consults) (c : CapabilityId) (w : World) :
    (∀ rs, ((s.locate c).run.run w).1 = .ok rs →
      ∃ rs₀, ((s.root.locate c).run.run w).1 = .ok rs₀ ∧ rs₀ <+: rs) ∧
    ∀ cause, ((s.root.locate c).run.run w).1 = .error cause →
      ((s.locate c).run.run w).1 = .error cause := by
  cases hc : isQualifiedName c.text with
  | false =>
    rw [run_locate_of_not_isQualifiedName hc, run_locate_of_not_isQualifiedName hc]
    exact ⟨nofun, fun cause => id⟩
  | true =>
    have hroot := s.root.resources_after_asked c.resourceName s.name s.root.name w
    obtain ⟨hok, herror⟩ := h.resources_root c.resourceName (w.after [.asked s.name c.resourceName])
    rw [run_locate_of_isQualifiedName hc, run_locate_of_isQualifiedName hc, ← hroot]
    refine ⟨fun rs hrs => ?_, fun cause hcause => ?_⟩
    · obtain ⟨rs₀, w₀, hrun, hbegins⟩ := hok rs _ (Prod.ext hrs rfl)
      exact ⟨rs₀, congrArg Prod.fst hrun, hbegins⟩
    · exact congrArg Prod.fst (herror cause _ (Prod.ext hcause rfl))

end Scope

end ProviderDiscovery
