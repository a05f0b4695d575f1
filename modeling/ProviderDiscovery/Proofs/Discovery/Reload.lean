import ProviderDiscovery.Proofs.Discovery.Encounters
import ProviderDiscovery.Proofs.Discovery.Twins

/-!
# Starting over

A reload leaves no trace: whatever was done before, a session goes on as one with a discovery that
has just been started in the same world, and only the number of reloads tells the two apart. So all
names are tried again, those that failed or were refused among them, and resources that failed are
opened again. Nothing but a reload takes an instance away.
-/

namespace ProviderDiscovery

/-- The table when it has been cleared a number of times more. -/
def Instances.later {α : Type} (i : Instances α) (k : Nat) : Instances α :=
  ⟨i.entries, i.generation + k, i.nodup⟩

namespace Session

/-- The session when its discovery has been reloaded a number of times more. Nothing in it but that
number is different. -/
def later (s : Session) (k : Nat) : Session :=
  { s with discovery := { s.discovery with instances := s.discovery.instances.later k } }

/-- Twins with one record and in one scope are the same session, besides the number of reloads. -/
theorem Twin.eq_later {H : Handle → Prop} {scope : Scope} {k : Nat} {s s' : Session}
    (h : Twin H scope scope k s s') (hr : s.SameRecord s') : s = s'.later k := by
  obtain ⟨⟨hscope, htwin, hentries, hgeneration, ⟨hsearched, hcandidates, -⟩, -, -⟩, -, hpass,
    hanswers⟩ := h
  obtain ⟨hworld, hevents⟩ := hr
  obtain ⟨d, _, _, _, _⟩ := s
  obtain ⟨d', _, _, _, _⟩ := s'
  obtain ⟨_, _, _, _, _, ⟨entries, _, _⟩, c⟩ := d
  obtain ⟨_, _, _, _, _, ⟨_, _, _⟩, c'⟩ := d'
  obtain ⟨_, _, _, _, _, _, _⟩ := c
  simp only at hworld hevents hpass hanswers hscope htwin hentries hgeneration hsearched hcandidates
  subst hworld hevents hpass hanswers hscope hsearched hentries hgeneration hcandidates
  cases htwin
  rfl

section

variable (capability : CapabilityId) (contract : Contract) (scope : Scope) (resolver : Resolver)
  (authority : Authority) {i : Instances Provider} {c : Candidates} {s : Session}

/-- A reloaded session starts with a discovery whose table has been cleared. -/
theorem step_reload_eq_start (hs : s.discovery =
    { Discovery.start capability contract scope resolver authority with
      instances := i, candidates := c }) :
    s.step .reload = start { Discovery.start capability contract scope resolver authority with
      instances := i.clear } s.world := by
  have hreload : s.step .reload = start s.discovery.reload s.world := rfl
  rw [hreload, hs]
  rfl

end

end Session

/-- **A reload is a new start.** Take any session, whatever was done in it: passes that were ended,
dropped or failed, refusals, earlier reloads, and changes in between. When it is reloaded, every
further run of operations gives the same answers, does the same in the same order and leads to the
same state as if a discovery were started anew in that world, with the same capability, contract,
scope, resolver and authority; only the number of reloads is counted on. If the authority permits
all steps from then on and the scope says which resources there are, passes get to all names that
these list, whatever became of the names before, and to all resources that fail. And nothing but a
reload removes an instance. -/
theorem Session.reload_starts_over (capability : CapabilityId) (contract : Contract) (scope : Scope)
    (resolver : Resolver) (authority : Authority) (w : World) (ops : List Operation) :
    let s := (start (.start capability contract scope resolver authority) w).after ops
    let anew := start (.start capability contract scope resolver authority) s.world
    (∀ more : List Operation,
        s.after (.reload :: more) =
            (anew.after more).later (s.discovery.instances.generation + 1) ∧
          s.trace (.reload :: more) = anew.trace more) ∧
      (authority.PermitsFrom s.world → ∀ rs,
        ((scope.locate capability).run.run (s.world.after authority.entry)).1 = .ok rs →
          ∃ passes : List Nat, let again := passes.flatMap Operation.pass
            ∀ r ∈ rs,
              (∀ names, r.namesIn capability s.world.files = .ok names →
                ∀ name ∈ names, name ∈ triedNames ((s.step .reload).trace again)) ∧
              ∀ e, r.namesIn capability s.world.files = .error e →
                .error e ∈ (s.step .reload).encounters again) ∧
      ∀ more : List Operation, (∀ op ∈ more, op.isReload = false) →
        s.discovery.instances.entries <+: (s.after more).discovery.instances.entries := by
  intro s anew
  have hstart := kept_start capability contract scope resolver authority w
  obtain ⟨i, c, hs⟩ := hstart.setting_after ops
  let cleared : Discovery :=
    { Discovery.start capability contract scope resolver authority with instances := i.clear }
  have hcleared : cleared.Fresh := ⟨rfl, rfl⟩
  have hreload : s.step .reload = start cleared s.world :=
    step_reload_eq_start capability contract scope resolver authority hs
  refine ⟨fun more => ?_, fun hpermits rs hlocate => ?_,
    fun more hmore => entries_prefix_after (hstart.after ops) hmore⟩
  · have htwin : Twin (fun _ => True) scope scope (i.generation + 1) (start cleared s.world) anew :=
      twin_of_fresh hcleared (i := ∅) rfl (Nat.zero_add _).symm s.world
    obtain ⟨hafter, htrace, hrecord⟩ :=
      htwin.after (fun op _ => op.within_true) fun op _ _ => ⟨rfl, fun _ _ _ _ => trivial⟩
    have hgeneration : s.discovery.instances.generation = i.generation :=
      congrArg (·.instances.generation) hs
    refine ⟨?_, ?_⟩
    · change (s.step .reload).after more = _
      rw [hreload, hgeneration]
      exact hafter.eq_later (hrecord ⟨rfl, rfl⟩)
    · change (s.step .reload).trace more = _
      rw [hreload]
      exact htrace
  · have hwalk := goesThrough_of_fresh hcleared hpermits hlocate
    rw [← hreload] at hwalk
    obtain ⟨passes, hfinished⟩ := hwalk.reached
    have hown : ∀ op ∈ passes.flatMap Operation.pass, op.isOwn :=
      fun op => Operation.isOwn_of_mem_passes
    have hall := hwalk.toTheEnd _ hown hfinished
    refine ⟨passes, fun r hr => ⟨fun names hnames name hname => ?_, fun e he => ?_⟩⟩
    · rw [hwalk.tried _ hown, hall]
      exact mem_filterMap_name?_firstMentions rfl (mem_filterMap_name?_mentions hr hnames hname)
    · rw [hall]
      exact error_mem_firstMentions (error_mem_mentions hr he) _

/-- A pass has made `A` and failed for `B`. After a reload `A` is made anew, with the third call of
a factory, and `B` fails again, as in a session that is started in that world. -/
theorem Session.reload_twoResources :
    let s := (start (.start ⟨"x.Codec"⟩ ⟨"Codec"⟩ twoScope .registry .unrestricted)
      (.fresh ∅ mixedTypes)).after (Operation.pass 3)
    let broken : DiscoveryError := ⟨⟨"x.Codec"⟩, .instantiationFailed "B" "broken"⟩
    s.answers = [some (.ok ⟨"a", 1⟩), some (.error broken), none] ∧
      (s.after (.reload :: Operation.pass 2)).answers =
        [some (.ok ⟨"a", 3⟩), some (.error broken)] ∧
      ∃ passes : List Nat, let again := passes.flatMap Operation.pass
        "B" ∈ triedNames ((s.step .reload).trace again) := by
  intro s broken
  obtain ⟨hafter, hagain, -⟩ := reload_starts_over ⟨"x.Codec"⟩ ⟨"Codec"⟩ twoScope .registry
    .unrestricted (.fresh ∅ mixedTypes) (Operation.pass 3)
  have hlocate : ((twoScope.locate ⟨"x.Codec"⟩).run.run s.world).1 = .ok twoResources := rfl
  obtain ⟨passes, hpasses⟩ := hagain (Authority.permitsFrom_unrestricted s.world) _ hlocate
  refine ⟨by decide +kernel, ?_, passes, ?_⟩
  · rw [(hafter (Operation.pass 2)).1]
    decide +kernel
  · exact (hpasses _ List.mem_cons_self).1 ["A", "B"] (by decide +kernel) "B" (by decide)

end ProviderDiscovery
