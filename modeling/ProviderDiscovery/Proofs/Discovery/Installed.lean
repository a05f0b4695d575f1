import ProviderDiscovery.Proofs.Discovery.Encounters
import ProviderDiscovery.Proofs.Discovery.Location
import ProviderDiscovery.Proofs.Scope.Root

/-!
# Installed providers come first

The installed providers are those of the root of a scope. What the root has comes first in the
scope, so the walk over the installed providers is a first part of the walk over all of them: a
session in the scope encounters what a session in its root encounters, in the same order, before
anything else, and keeps its instances in that order.
-/

namespace ProviderDiscovery

/-- A session in a scope whose walk goes on where another walk ends keeps the instances of names
from the other walk first, in the order of that walk. -/
theorem Session.GoesThrough.kept_first {s : Session} {first walk : List Mention}
    (h : s.GoesThrough walk) (hbegins : first <+: walk)
    (hnodup : (walk.filterMap Mention.name?).Nodup) {ops : List Operation}
    (hops : ∀ op ∈ ops, op.isOwn) :
    ∃ front behind, (s.after ops).discovery.instances.entries.map Prod.fst = front ++ behind ∧
      front.Sublist (first.filterMap Mention.name?) ∧
      ∀ name ∈ behind, name ∉ first.filterMap Mention.name? := by
  -- The instances follow the walk, and the walk is the first one and then names that are new.
  have hkept := (h.kept ops hops).trans ((h.sofar ops hops).sublist.filterMap Mention.name?)
  obtain ⟨others, rfl⟩ := hbegins
  rw [List.filterMap_append] at hkept hnodup
  obtain ⟨front, behind, hentries, hfront, hbehind⟩ := List.sublist_append_iff.mp hkept
  refine ⟨front, behind, hentries, hfront, fun name hname hfirst => ?_⟩
  exact (List.nodup_append.mp hnodup).2.2 name hfirst name (hbehind.subset hname) rfl

/-- **Installed providers come first.** What a scope has under a name begins with what its root has,
whenever it is asked, and a failure of the root is the failure of the scope. So take a session in
the root and one in the scope, with one resolver and in one world. If the scope says which resources
there are, the first walks over a first part of the walk of the second: what it encounters is a
first part of all that the second encounters, and the second keeps the instances of these names
first, in their order. If the root fails in a round at which nothing has been found yet, both
sessions are answered with that failure. The root is the outermost ancestor: it has no parent. The
scope may be any whose parents are consulted: scopes in memory and class paths with parents of any
depth, and whatever has no parent. -/
theorem Session.installed_come_first {scope : Scope} (hscope : scope.Consults)
    (capability : CapabilityId) (contract : Contract) (resolver : Resolver) (w : World) :
    let installed :=
      start { Discovery.loadInstalled capability contract scope with resolver := resolver } w
    let full := start { Discovery.load capability contract scope with resolver := resolver } w
    let walk := fun rs => firstMentions (fun _ => false) (mentions capability w.files rs)
    scope.root.parent? = none ∧
    (∀ name v,
      (∀ rs v', (scope.resources name).run.run v = (.ok rs, v') →
        ∃ rs₀ v₀, (scope.root.resources name).run.run v = (.ok rs₀, v₀) ∧ rs₀ <+: rs) ∧
      ∀ cause v', (scope.root.resources name).run.run v = (.error cause, v') →
        (scope.resources name).run.run v = (.error cause, v')) ∧
    (∀ rs, ((scope.locate capability).run.run w).1 = .ok rs →
      ∃ rs₀, ((scope.root.locate capability).run.run w).1 = .ok rs₀ ∧
        walk rs₀ <+: walk rs ∧ installed.GoesThrough (walk rs₀) ∧ full.GoesThrough (walk rs) ∧
        (∀ ops ops' : List Operation, (∀ op ∈ ops, op.isOwn) → (∀ op ∈ ops', op.isOwn) →
          (full.after ops').Finished → installed.encounters ops <+: full.encounters ops') ∧
        ∀ ops : List Operation, (∀ op ∈ ops, op.isOwn) →
          ∃ front behind,
            (full.after ops).discovery.instances.entries.map Prod.fst = front ++ behind ∧
              front.Sublist ((walk rs₀).filterMap Mention.name?) ∧
              ∀ name ∈ behind, name ∉ (walk rs₀).filterMap Mention.name?) ∧
    ∀ (r : Round) cause,
      ((scope.root.locate capability).run.run (installed.after r.before).world).1 = .error cause →
        let failed := some (.error ⟨capability, .scope cause⟩) ::
          List.replicate (r.rest.countP (·.isRequest)) none
        (installed.after r.operations).answers = failed ∧
          (full.after r.operations).answers = failed := by
  intro installed full walk
  have hpermits := Authority.permitsFrom_unrestricted w
  refine ⟨scope.parent?_root, fun name v => hscope.resources_root name v, fun rs hlocate => ?_,
    fun r cause hroot => ?_⟩
  · obtain ⟨rs₀, hroot, hbegins⟩ := (hscope.locate_root capability w).1 rs hlocate
    have hwalk : walk rs₀ <+: walk rs :=
      firstMentions_prefix_firstMentions _ (mentions_prefix_mentions capability w.files hbegins)
    have hinstalled : installed.GoesThrough (walk rs₀) :=
      goesThrough_of_fresh ⟨rfl, rfl⟩ hpermits hroot
    have hfull : full.GoesThrough (walk rs) := goesThrough_of_fresh ⟨rfl, rfl⟩ hpermits hlocate
    refine ⟨rs₀, hroot, hwalk, hinstalled, hfull, fun ops ops' hops hops' hfinished => ?_,
      fun ops hops => hfull.kept_first hwalk (nodup_filterMap_name?_firstMentions ..) hops⟩
    rw [hfull.toTheEnd ops' hops' hfinished]
    exact (hinstalled.sofar ops hops).trans hwalk
  · have hworld : (full.after r.before).world = (installed.after r.before).world := by
      rw [after_of_beginPass r.begins, after_of_beginPass r.begins]
      rfl
    have hfails : ((scope.locate capability).run.run (full.after r.before).world).1 =
        .error cause := by
      rw [hworld]
      exact (hscope.locate_root capability _).2 cause hroot
    obtain ⟨es, hinstalled, -⟩ := after_round_of_unlocated (s := installed) ⟨rfl, rfl⟩ rfl hroot
    obtain ⟨es', hfull, -⟩ := after_round_of_unlocated (s := full) ⟨rfl, rfl⟩ rfl hfails
    rw [hinstalled, hfull]
    exact ⟨rfl, rfl⟩

/-- A scope that lists `B` and `C`, in a parent that lists `A` and `B`. -/
def layeredScope : Scope :=
  .memory "child" (Services.add ∅ "x.Codec" "B\nC")
    (some (.memory "parent" (Services.add ∅ "x.Codec" "A\nB") none))

/-- A session in the root encounters `A` and `B`, and one in the scope `C` behind them. -/
theorem Session.installed_come_first_layered :
    let w : World := .fresh ∅ mixedTypes
    let installed := start { Discovery.loadInstalled ⟨"x.Codec"⟩ ⟨"Codec"⟩ layeredScope with
      resolver := .registry } w
    let full := start { Discovery.load ⟨"x.Codec"⟩ ⟨"Codec"⟩ layeredScope with
      resolver := .registry } w
    let passes := [2, 3].flatMap Operation.pass
    layeredScope.Consults ∧ installed.encounters passes <+: full.encounters passes ∧
      (installed.encounters passes).filterMap Mention.name? = ["A", "B"] ∧
      (full.encounters passes).filterMap Mention.name? = ["A", "B", "C"] := by
  intro w installed full passes
  obtain ⟨rs, hlocate⟩ : ∃ rs, ((layeredScope.locate ⟨"x.Codec"⟩).run.run w).1 = .ok rs := ⟨_, rfl⟩
  have hscope : layeredScope.Consults := .memory (.outermost rfl)
  obtain ⟨-, -, hwalks, -⟩ := installed_come_first hscope ⟨"x.Codec"⟩ ⟨"Codec"⟩ .registry w
  obtain ⟨rs₀, -, -, -, -, hbegins, -⟩ := hwalks rs hlocate
  have hown : ∀ op ∈ passes, op.isOwn := fun op => Operation.isOwn_of_mem_passes
  have hanswers : (full.after passes).answers =
      [some (.ok ⟨"a", 1⟩), some (.ok ⟨"c", 3⟩), none] := by decide +kernel
  have hfinished : (full.after passes).Finished := by simp [Finished, hanswers]
  exact ⟨hscope, hbegins passes passes hown hown hfinished, by decide +kernel, by decide +kernel⟩

end ProviderDiscovery
