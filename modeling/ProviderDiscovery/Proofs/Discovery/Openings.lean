import ProviderDiscovery.Proofs.Candidates.Openings
import ProviderDiscovery.Proofs.Discovery.Account
import ProviderDiscovery.Proofs.Discovery.Encounters

/-!
# Resources are opened lazily and once

A discovery opens a resource when it takes a step and everything that was read before has been used
up, and never again. `Session.openings` is the record of what has been opened since the last reload,
each resource with the files as they were then. The names that are handed out are read off this
record alone, so it makes no difference what the files hold earlier or later.
-/

namespace ProviderDiscovery

/-! ### One step -/

namespace Discovery

variable {d d' : Discovery} {w : World} {es : List Event} {met : Option Mention}

/-- What a step **opens**, and the mention that it meets. -/
inductive Opens (d : Discovery) (w : World) (es : List Event) (d' : Discovery) :
    Option Mention → Prop where
  /-- Nothing is opened. -/
  | nothing (hcandidates : d'.candidates = d.candidates) (hids : openedResources es = []) :
      Opens d w es d' none
  /-- The first ones of the resources that are still to be opened. They are located before, unless
  they have been. -/
  | first {new rest : List Resource} {met : Option Mention}
      (hunopened : d.candidates.unopened (w.after d.authority.entry) = .ok (new ++ rest))
      (hids : openedResources es = new)
      (hopened : Candidates.Opened d.instances.contains w.files d.candidates new rest met
        d'.candidates)
      (hlocates : d.candidates.unread = none → d.Locates w es (.ok (new ++ rest))) :
      Opens d w es d' met

/-- What is done behind the search makes no difference, if nothing is opened then. -/
theorem Opens.append (h : d.Opens w es d' met) {fs : List Event} (hfs : openedResources fs = [])
    (i : Instances Provider) : d.Opens w (es ++ fs) { d' with instances := i } met := by
  have hids : openedResources (es ++ fs) = openedResources es := by
    rw [openedResources_append, hfs, List.append_nil]
  cases h with
  | nothing hcandidates hnone => exact .nothing hcandidates (hids.trans hnone)
  | first hunopened hnew hopened hlocates =>
    exact .first hunopened (hids.trans hnew) hopened fun hunread => (hlocates hunread).append fs

section

variable (hu : d.candidates.upcoming = none) (hcapability : d.candidates.capability = d.capability)
  (hscope : d.candidates.scope = d.scope)
include hu hcapability hscope

/-- The search of a step opens nothing, or the first ones of the resources that are still to be
opened. A candidate that it gets is what it has met. -/
theorem opens_of_run_nextCandidate {answer : Except DiscoveryError (Option Candidate)}
    (hrun : d.nextCandidate.run w = ((answer, d'), w.after es)) :
    ∃ met, d.Opens w es d' met ∧
      ∀ candidate, answer = .ok (some candidate) → met = some (.ok candidate) := by
  have hentry : openedResources d.authority.entry = [] :=
    openedResources_eq_nil (opened_not_mem_entry _)
  by_cases hruns : (d.authority.entranceIn w).runs = 0
  · rw [run_nextCandidate_of_runs_eq_zero hruns] at hrun
    obtain ⟨hpair, hworld⟩ := Prod.mk.inj hrun
    obtain ⟨rfl, rfl⟩ := Prod.mk.inj hpair
    obtain rfl := World.after_inj hworld
    exact ⟨none, .nothing rfl hentry, nofun⟩
  · have hlocates := fun hunread =>
      locates_of_run_nextCandidate hu hcapability hscope hruns hunread hrun
    have hdone := Authority.run_of_runs_ne_zero hruns d.capability
      (Candidates.next d.instances.contains) d.candidates
    rw [Authority.enter_eq_after_entry] at hdone
    rw [nextCandidate, Action.run_bind, hdone] at hrun
    cases hr : d.candidates.unopened (w.after d.authority.entry) with
    | error cause =>
      obtain ⟨fs, hnext, hfs⟩ := Candidates.exists_run_next_of_error d.instances.contains hu hr
      rw [hnext, World.after_after] at hrun
      obtain ⟨hpair, hworld⟩ := Prod.mk.inj hrun
      obtain ⟨hanswer, rfl⟩ := Prod.mk.inj hpair
      obtain rfl := World.after_inj hworld
      refine ⟨none, .nothing rfl ?_, fun candidate hcandidate => ?_⟩
      · rw [openedResources_append, hentry, hfs]
        rfl
      · cases Authority.eq_ok_of_release (hanswer.trans hcandidate)
    | ok rs =>
      obtain ⟨met, c, new, rest, fs, hnext, hfs, rfl, hopened⟩ :=
        Candidates.exists_run_next d.instances.contains hu hr
      rw [hnext, World.after_after] at hrun
      obtain ⟨hpair, hworld⟩ := Prod.mk.inj hrun
      obtain ⟨hanswer, rfl⟩ := Prod.mk.inj hpair
      obtain rfl := World.after_inj hworld
      refine ⟨met, .first hr ?_ hopened fun hunread => ?_, fun candidate hcandidate => ?_⟩
      · rw [openedResources_append, hentry, hfs]
        rfl
      · have hlocated : ((d.scope.locate d.capability).run.run (w.after d.authority.entry)).1 =
            .ok (new ++ rest) := by
          rw [← hr, Candidates.unopened, hunread, hcapability, hscope]
        rw [← hlocated]
        exact hlocates hunread
      · have hmet : Mention.answer met = .ok (some candidate) :=
          Authority.eq_ok_of_release (hanswer.trans hcandidate)
        rw [← Mention.ofAnswer_answer met, hmet]
        rfl

/-- **A step opens nothing, or the first ones** of the resources that are still to be opened. Only
a candidate that it has met is taken up. -/
theorem opens_of_run_advance {answer : Except DiscoveryError (Option Provider)}
    (hrun : d.advance.run w = ((answer, d'), w.after es)) :
    ∃ met, d.Opens w es d' met ∧ (takenUp es).Sublist (met.bind Except.toOption).toList := by
  obtain ⟨found, c, searched, handed, hsearch, hsearched, -, -, -, hskipped, hhanded⟩ :=
    d.run_nextCandidate w hu
  have htaken : takenUp searched = [] := takenUp_of_isSearch hsearched
  obtain ⟨met, hopens, hmet⟩ := opens_of_run_nextCandidate hu hcapability hscope hsearch
  rcases found with e | _ | candidate
  · rw [run_advance_of_error hsearch] at hrun
    obtain ⟨hpair, hworld⟩ := Prod.mk.inj hrun
    obtain ⟨-, rfl⟩ := Prod.mk.inj hpair
    obtain rfl := World.after_inj hworld
    exact ⟨met, hopens, htaken ▸ List.nil_sublist _⟩
  · rw [run_advance_of_none hsearch] at hrun
    obtain ⟨hpair, hworld⟩ := Prod.mk.inj hrun
    obtain ⟨-, rfl⟩ := Prod.mk.inj hpair
    obtain rfl := World.after_inj hworld
    exact ⟨met, hopens, htaken ▸ List.nil_sublist _⟩
  · have hname : d.instances.contains candidate.name = false :=
      (Bool.or_eq_false_iff.mp (hskipped candidate.name (hhanded candidate rfl))).1
    obtain ⟨given, i, fs, haccept, hopened, -⟩ :=
      exists_run_acceptName { d with candidates := c } candidate.name
        (w.after (searched ++ [.accepting candidate.name candidate.resource]))
    obtain ⟨_, _, gs, haccept', htried, -⟩ := run_acceptName { d with candidates := c }
      (w.after (searched ++ [.accepting candidate.name candidate.resource])) hname
    obtain rfl : fs = gs :=
      World.after_inj (congrArg Prod.snd (haccept.symm.trans haccept'))
    rw [run_advance_of_candidate hsearch haccept] at hrun
    obtain ⟨hpair, hworld⟩ := Prod.mk.inj hrun
    obtain ⟨-, rfl⟩ := Prod.mk.inj hpair
    obtain rfl := World.after_inj hworld
    have hids : openedResources (.accepting candidate.name candidate.resource :: fs) = [] := by
      rw [openedResources, List.filterMap_cons_none rfl]
      exact openedResources_eq_nil hopened
    have hnone : takenUp fs = [] := by
      rw [← List.map_eq_nil_iff, map_name_takenUp, htried]
    have hmet' : takenUp (searched ++ .accepting candidate.name candidate.resource :: fs) =
        (met.bind Except.toOption).toList := by
      rw [takenUp_append, htaken, hmet candidate rfl]
      exact congrArg (candidate :: ·) hnone
    exact ⟨met, hopens.append hids i, hmet' ▸ .refl _⟩

end

end Discovery

/-! ### The record of a session -/

/-- A resource that was **opened**, and the files as they were then. -/
structure Opening where
  /-- The resource. -/
  resource : Resource
  /-- The files, when it was opened. -/
  files : FileTree

/-- The names that were read from the resource, unless it failed. -/
def Opening.names (capability : CapabilityId) (o : Opening) : Except DiscoveryError (List String) :=
  o.resource.namesIn capability o.files

/-- What was mentioned in resources when they were opened, one after the other. -/
def recordedMentions (capability : CapabilityId) (os : List Opening) : List Mention :=
  os.flatMap fun o => o.resource.mentions capability o.files

theorem recordedMentions_append (capability : CapabilityId) (os more : List Opening) :
    recordedMentions capability (os ++ more) =
      recordedMentions capability os ++ recordedMentions capability more :=
  List.flatMap_append

/-- Resources that are opened in the same files. -/
theorem recordedMentions_map (capability : CapabilityId) (files : FileTree) (rs : List Resource) :
    recordedMentions capability (rs.map (⟨·, files⟩)) = mentions capability files rs :=
  List.flatMap_map ..

theorem map_resource_map (files : FileTree) (rs : List Resource) :
    (rs.map (⟨·, files⟩ : Resource → Opening)).map (·.resource) = rs := by
  rw [List.map_map]
  exact List.map_id rs

theorem mem_recordedMentions {capability : CapabilityId} {os : List Opening} {o : Opening}
    {names : List String} {name : String} (ho : o ∈ os) (hnames : o.names capability = .ok names)
    (hname : name ∈ names) :
    name ∈ (recordedMentions capability os).filterMap Mention.name? := by
  refine List.mem_filterMap.mpr ⟨.ok ⟨name, o.resource.id⟩, List.mem_flatMap.mpr ⟨o, ho, ?_⟩, rfl⟩
  rw [Resource.mentions, ← Opening.names, hnames]
  exact List.mem_map.mpr ⟨name, hname, rfl⟩

namespace Session

/-- What an operation **opens**: of the resources that are still to be opened the first ones, as
many as are opened in what is done. -/
def newOpenings (s : Session) (op : Operation) : List Opening :=
  match s.discovery.candidates.unopened (s.world.after s.discovery.authority.entry) with
  | .error _ => []
  | .ok rs => (rs.take (openedResources (s.done op)).length).map (⟨·, s.world.files⟩)

/-- What a session has opened since the last reload, when it had opened some resources before. -/
def openingsSince (s : Session) (before : List Opening) : List Operation → List Opening
  | [] => before
  | op :: rest =>
    (s.step op).openingsSince (if op.isReload then [] else before ++ s.newOpenings op) rest

/-- What a session has **opened** in a run of operations, since the last reload. -/
def openings (s : Session) (ops : List Operation) : List Opening := s.openingsSince [] ops

theorem openings_concat (s : Session) (ops : List Operation) (op : Operation) :
    s.openings (ops ++ [op]) =
      if op.isReload then [] else s.openings ops ++ (s.after ops).newOpenings op := by
  have h : ∀ before, s.openingsSince before (ops ++ [op]) =
      if op.isReload then [] else s.openingsSince before ops ++ (s.after ops).newOpenings op := by
    induction ops generalizing s with
    | nil => exact fun before => rfl
    | cons first rest ih => exact fun before => ih (s.step first) _
  exact h []

/-- Resources are **located** in a run of operations: since the last reload there was the request
that located them. -/
def Located (first : Session) (ops : List Operation) (rs : List Resource) : Prop :=
  ∃ before behind, ops = before ++ .next :: behind ∧ (∀ op ∈ behind, op.isReload = false) ∧
    (first.after before).discovery.candidates.unread = none ∧
    (first.after (before ++ [.next])).discovery.candidates.unread ≠ none ∧
    first.discovery.Locates (first.after before).world ((first.after before).done .next) (.ok rs)

variable {s first : Session} {ops : List Operation} {op : Operation}

theorem Located.append {rs : List Resource} (h : first.Located ops rs) (hop : op.isReload = false) :
    first.Located (ops ++ [op]) rs := by
  obtain ⟨before, behind, rfl, hbehind, hlocates⟩ := h
  exact ⟨before, behind ++ [op], by simp,
    List.forall_mem_append.mpr ⟨hbehind, List.forall_mem_singleton.mpr hop⟩, hlocates⟩

theorem newOpenings_of_openedResources_eq_nil (h : openedResources (s.done op) = []) :
    s.newOpenings op = [] := by
  unfold newOpenings
  cases s.discovery.candidates.unopened _ with
  | error cause => rfl
  | ok rs =>
    rw [h]
    rfl

/-- The resources that a step opens are what it opens. -/
theorem newOpenings_of_first {new rest : List Resource}
    (hunopened : s.discovery.candidates.unopened (s.world.after s.discovery.authority.entry) =
      .ok (new ++ rest)) (hids : openedResources (s.done op) = new) :
    s.newOpenings op = new.map (⟨·, s.world.files⟩) := by
  rw [newOpenings, hunopened, hids]
  exact congrArg _ List.take_left

/-- The names of instances have been handed out. -/
theorem Kept.mem_returned (hk : s.Kept) {name : String}
    (h : s.discovery.instances.contains name) : name ∈ s.discovery.candidates.returned :=
  hk.entries_sublist.subset (Instances.contains_iff.mp h)

/-- Candidates of the capability of the first session are looked for. -/
theorem Kept.capability_after (hk : first.Kept) (ops : List Operation) :
    (first.after ops).discovery.candidates.capability = first.discovery.capability := by
  obtain ⟨i, c, hsetting⟩ := hk.setting_after ops
  rw [(hk.after ops).capability, hsetting]

/-! ### What is opened in a run of operations -/

/-- What a session **has read** after a run of operations. -/
structure HasRead (first : Session) (ops : List Operation) : Prop where
  /-- Candidates are looked for in the scope of the discovery. -/
  scope : (first.after ops).discovery.candidates.scope = first.discovery.scope
  /-- The record holds what was opened. -/
  opened : openedResources (first.after ops).events = (first.openings ops).map (·.resource)
  /-- Nothing is opened before the resources are located. -/
  unlocated : (first.after ops).discovery.candidates.unread = none → first.openings ops = []
  /-- The resources have been located once: some are opened, and the rest not yet. -/
  located : ∀ rest, (first.after ops).discovery.candidates.unread = some rest →
    first.Located ops ((first.openings ops).map (·.resource) ++ rest)
  /-- Candidates are read off the record; only those that have been handed out are taken up. -/
  handed : ∃ handed, Candidates.ReadOff
      (recordedMentions first.discovery.capability (first.openings ops)) handed
      (first.after ops).discovery.candidates ∧
    (takenUp (first.after ops).events).Sublist handed

/-- An operation that opens nothing and leaves the candidates keeps to it. -/
theorem HasRead.of_candidates_eq (h : first.HasRead ops) (hop : op.isReload = false)
    (hcandidates : ((first.after ops).step op).discovery.candidates =
      (first.after ops).discovery.candidates)
    (hevents : ((first.after ops).step op).events = (first.after ops).events ++
      (first.after ops).done op)
    (hids : openedResources ((first.after ops).done op) = [])
    (htaken : takenUp ((first.after ops).done op) = []) : first.HasRead (ops ++ [op]) := by
  have hopenings : first.openings (ops ++ [op]) = first.openings ops := by
    rw [openings_concat, hop, newOpenings_of_openedResources_eq_nil hids]
    exact List.append_nil _
  have hafter := first.after_concat ops op
  refine ⟨?_, ?_, ?_, fun rest hrest => ?_, ?_⟩
  · rw [hafter, hcandidates, h.scope]
  · rw [hafter, hevents, openedResources_append, hids, List.append_nil, h.opened, hopenings]
  · rw [hafter, hcandidates, hopenings]
    exact h.unlocated
  · rw [hafter, hcandidates] at hrest
    rw [hopenings]
    exact (h.located rest hrest).append hop
  · rw [hafter, hcandidates, hevents, takenUp_append, htaken, List.append_nil, hopenings]
    exact h.handed

/-- A step of the discovery opens what is still to be opened. -/
theorem HasRead.opens_of_isAttempt (hk : first.Kept) (h : first.HasRead ops)
    (hop : (first.after ops).isAttempt op) :
    ∃ d met, (first.after ops).discovery.Opens (first.after ops).world ((first.after ops).done op)
      d met := by
  have hkept := hk.after ops
  obtain ⟨i, c, hsetting⟩ := hk.setting_after ops
  obtain ⟨answer, d, es, hrun, -⟩ :=
    (first.after ops).discovery.run_advance (first.after ops).world hkept.upcoming
  obtain ⟨met, hopens, -⟩ := Discovery.opens_of_run_advance hkept.upcoming hkept.capability
    (by rw [h.scope, hsetting]) hrun
  rw [done_of_isAttempt hop hrun]
  exact ⟨d, met, hopens⟩

/-- The record grows by what is opened. -/
theorem HasRead.openedResources_done (hk : first.Kept) (h : first.HasRead ops) (op : Operation) :
    openedResources ((first.after ops).done op) =
      ((first.after ops).newOpenings op).map (·.resource) := by
  have hnone : openedResources ((first.after ops).done op) = [] →
      openedResources ((first.after ops).done op) =
        ((first.after ops).newOpenings op).map (·.resource) := by
    intro hids
    rw [newOpenings_of_openedResources_eq_nil hids, hids]
    rfl
  cases hop : (first.after ops).isAttempt op with
  | false => exact hnone (by rw [done_of_isAttempt_eq_false hop]; rfl)
  | true =>
    obtain ⟨d, met, hopens⟩ := h.opens_of_isAttempt hk hop
    cases hopens with
    | nothing hcandidates hids => exact hnone hids
    | first hunopened hids hopened hlocates =>
      rw [newOpenings_of_first hunopened hids, hids, map_resource_map]

/-- **A resource is opened only by a step of the discovery**, and when all that was read from those
before has been handed out. -/
theorem HasRead.mem_returned (hk : first.Kept) (h : first.HasRead ops) {front back : List Opening}
    {o : Opening} (hnew : (first.after ops).newOpenings op = front ++ o :: back) :
    (first.after ops).isAttempt op ∧ o.files = (first.after ops).world.files ∧
      ∀ earlier ∈ first.openings ops ++ front, ∀ names,
        earlier.names first.discovery.capability = .ok names →
          ∀ name ∈ names, name ∈ (first.after ops).discovery.candidates.returned := by
  have hsome : openedResources ((first.after ops).done op) ≠ [] := by
    intro hids
    rw [newOpenings_of_openedResources_eq_nil hids] at hnew
    exact List.append_ne_nil_of_right_ne_nil front (List.cons_ne_nil o back) hnew.symm
  have hattempt : (first.after ops).isAttempt op := by
    by_contra hop
    exact hsome (by rw [done_of_isAttempt_eq_false (by simpa using hop)]; rfl)
  obtain ⟨d, met, hopens⟩ := h.opens_of_isAttempt hk hattempt
  cases hopens with
  | nothing hcandidates hids => exact absurd hids hsome
  | @first new rest _ hunopened hids hopened hlocates =>
    rw [newOpenings_of_first hunopened hids] at hnew
    obtain ⟨rs, behind, rfl, rfl, hbehind⟩ := List.map_eq_append_iff.mp hnew
    obtain ⟨r, others, rfl, rfl, -⟩ := List.map_eq_cons_iff.mp hbehind
    obtain ⟨handed, hread, -⟩ := h.handed
    refine ⟨hattempt, rfl, fun earlier hearlier names hnames name hname => ?_⟩
    refine hopened.mem_returned (fun _ => (hk.after ops).mem_returned) hread rfl ?_
    rw [hk.capability_after, ← recordedMentions_map, ← recordedMentions_append]
    exact mem_recordedMentions hearlier hnames hname

/-- The resources that are still to be opened come behind those that have been opened. -/
theorem HasRead.located_unopened (h : first.HasRead ops) {rs : List Resource}
    (hunopened : (first.after ops).discovery.candidates.unopened
      ((first.after ops).world.after (first.after ops).discovery.authority.entry) = .ok rs)
    (hlocates : (first.after ops).discovery.candidates.unread = none →
      first.discovery.Locates (first.after ops).world ((first.after ops).done .next) (.ok rs))
    (hsome : (first.after (ops ++ [.next])).discovery.candidates.unread ≠ none) :
    first.Located (ops ++ [.next]) ((first.openings ops).map (·.resource) ++ rs) := by
  cases hunread : (first.after ops).discovery.candidates.unread with
  | none =>
    rw [h.unlocated hunread]
    exact ⟨ops, [], rfl, nofun, hunread, hsome, hlocates hunread⟩
  | some located =>
    rw [Candidates.unopened, hunread] at hunopened
    obtain rfl := Except.ok.inj hunopened
    exact (h.located _ hunread).append rfl

/-- A step of the discovery keeps to it. -/
theorem HasRead.of_opens (hk : first.Kept) (h : first.HasRead ops) {d : Discovery}
    {met : Option Mention} (hdiscovery : ((first.after ops).step .next).discovery = d)
    (hevents : ((first.after ops).step .next).events = (first.after ops).events ++
      (first.after ops).done .next)
    (hopens : (first.after ops).discovery.Opens (first.after ops).world
      ((first.after ops).done .next) d met)
    (htaken : (takenUp ((first.after ops).done .next)).Sublist
      (met.bind Except.toOption).toList) : first.HasRead (ops ++ [.next]) := by
  have hkept := hk.after ops
  have hafter := first.after_concat ops .next
  obtain ⟨i, c, hsetting⟩ := hk.setting_after ops
  cases hopens with
  | nothing hcandidates hids =>
    exact h.of_candidates_eq rfl (by rw [hdiscovery, hcandidates]) hevents hids
      (List.sublist_nil.mp htaken)
  | @first new rest _ hunopened hids hopened hlocates =>
    have hopenings : first.openings (ops ++ [.next]) =
        first.openings ops ++ new.map (⟨·, (first.after ops).world.files⟩) := by
      rw [openings_concat, newOpenings_of_first hunopened hids]
      rfl
    have hunread : (first.after (ops ++ [.next])).discovery.candidates.unread = some rest := by
      rw [hafter, hdiscovery, hopened.unread]
    refine ⟨?_, ?_, fun hnone => ?_, fun behind hbehind => ?_, ?_⟩
    · rw [hafter, hdiscovery, hopened.scope, h.scope]
    · rw [hafter, hevents, openedResources_append, h.opened, hids, hopenings, List.map_append,
        map_resource_map]
    · rw [hunread] at hnone
      cases hnone
    · rw [hunread] at hbehind
      obtain rfl := Option.some.inj hbehind
      rw [hopenings, List.map_append, map_resource_map, List.append_assoc]
      refine h.located_unopened hunopened (fun hnone => ?_) (by simp [hunread])
      have hlocated := hlocates hnone
      rw [hsetting] at hlocated
      exact hlocated
    · obtain ⟨handed, hread, hhanded⟩ := h.handed
      have hreadOff := hopened.readOff (fun _ => hkept.mem_returned) hread
      rw [hk.capability_after, ← recordedMentions_map, ← recordedMentions_append, ← hopenings]
        at hreadOff
      rw [hafter, hdiscovery, hevents, takenUp_append]
      exact ⟨_, hreadOff, hhanded.append htaken⟩

/-- A request keeps to it. -/
theorem HasRead.next (hk : first.Kept) (h : first.HasRead ops) :
    first.HasRead (ops ++ [.next]) := by
  have hkept := hk.after ops
  obtain ⟨i, c, hsetting⟩ := hk.setting_after ops
  have hquiet := @HasRead.of_candidates_eq first ops .next h rfl
  have hopened := @HasRead.of_opens first ops hk h
  rw [Session.step] at hquiet hopened
  have hrequested := requested_next hkept.upcoming
  generalize (first.after ops).next = t, (first.after ops).done .next = es
    at hrequested hquiet hopened
  cases hrequested with
  | @stepped p answer d es hp hopen hslot hrun =>
    obtain ⟨met, hopens, htaken⟩ := Discovery.opens_of_run_advance hkept.upcoming hkept.capability
      (by rw [h.scope, hsetting]) hrun
    exact hopened rfl rfl hopens htaken
  | _ => exact hquiet rfl (List.append_nil _).symm rfl rfl

/-- Every operation keeps to it. -/
theorem HasRead.step (hk : first.Kept) (h : first.HasRead ops) (op : Operation) :
    first.HasRead (ops ++ [op]) := by
  cases op with
  | next => exact h.next hk
  | reload =>
    obtain ⟨i, c, hsetting⟩ := hk.setting_after ops
    have hopenings : first.openings (ops ++ [.reload]) = [] := openings_concat ..
    have hafter := first.after_concat ops .reload
    refine ⟨?_, ?_, fun _ => hopenings, fun rest hrest => ?_, [], ?_, ?_⟩
    · rw [hafter]
      change (first.after ops).discovery.scope = _
      rw [hsetting]
    · rw [hafter, hopenings]
      rfl
    · rw [hafter] at hrest
      cases hrest
    · rw [hafter, hopenings]
      exact ⟨rfl, rfl⟩
    · rw [hafter]
      exact .slnil
  | _ => exact h.of_candidates_eq rfl rfl (List.append_nil _).symm rfl rfl

/-- A run of operations keeps to it. -/
theorem HasRead.append (hk : first.Kept) (h : first.HasRead ops) (more : List Operation) :
    first.HasRead (ops ++ more) := by
  induction more generalizing ops with
  | nil =>
    rw [List.append_nil]
    exact h
  | cons op rest ih =>
    rw [List.append_cons]
    exact ih (h.step hk op)

theorem hasRead_start (capability : CapabilityId) (contract : Contract) (scope : Scope)
    (resolver : Resolver) (authority : Authority) (w : World) :
    (start (.start capability contract scope resolver authority) w).HasRead [] :=
  ⟨rfl, rfl, fun _ => rfl, nofun, [], ⟨rfl, rfl⟩, .slnil⟩

/-- **Resources are opened lazily and once.** Take any run of operations in a session, with files
that change meanwhile as they like. Neither the start of the session nor a reload nor the start of a
pass does anything to the world, nor does a request that replays an instance: no scope is asked, and
nothing is opened. Since the last reload the resources that have been opened are the first ones of
those that the scope told when they were located, in this order, and the rest is still to be opened.
Whatever is opened is opened by a step of the discovery, when every name that was read from the
well-formed resources before has been handed out. The candidates that have been handed out are, in
order, the first ones of those that are mentioned first in what the resources held when they were
opened, and all of them when a pass has finished; only they are taken up. -/
theorem opened_lazily_and_once (capability : CapabilityId) (contract : Contract) (scope : Scope)
    (resolver : Resolver) (authority : Authority) (w : World) (ops : List Operation) :
    let first := start (.start capability contract scope resolver authority) w
    let t := first.after ops
    let opened := first.openings ops
    (first.world = w ∧ (t.step .iterate).world = t.world ∧ (t.step .reload).world = t.world ∧
        (t.isAttempt .next = false → (t.step .next).world = t.world)) ∧
      (openedResources t.events = opened.map (·.resource) ∧
        (t.discovery.candidates.unread = none → opened = []) ∧
        ∀ rest, t.discovery.candidates.unread = some rest →
          first.Located ops (opened.map (·.resource) ++ rest)) ∧
      (∀ op, openedResources (t.done op) = (t.newOpenings op).map (·.resource) ∧
        ∀ front o back, t.newOpenings op = front ++ o :: back →
          t.isAttempt op ∧ o.files = t.world.files ∧
            ∀ earlier ∈ opened ++ front, ∀ names, earlier.names capability = .ok names →
              ∀ name ∈ names, name ∈ t.discovery.candidates.returned) ∧
      ∃ handed pending,
        Candidates.firstCandidates (recordedMentions capability opened) = handed ++ pending ∧
          handed.map (·.name) = t.discovery.candidates.returned ∧
          (takenUp t.events).Sublist handed ∧
          (t.Finished → pending = [] ∧ t.discovery.candidates.unread = some []) := by
  intro first t opened
  have hk : first.Kept := kept_start capability contract scope resolver authority w
  have hread : first.HasRead ops :=
    (hasRead_start capability contract scope resolver authority w).append hk ops
  refine ⟨⟨rfl, rfl, rfl, fun hno => ?_⟩, ⟨hread.opened, hread.unlocated, hread.located⟩,
    fun op => ⟨hread.openedResources_done hk op,
      fun front o back hnew => hread.mem_returned hk hnew⟩, ?_⟩
  · exact (next_of_isAttempt_eq_false (hk.after ops).upcoming hno).2
  · obtain ⟨handed, hreadOff, hhanded⟩ := hread.handed
    refine ⟨handed, _, hreadOff.candidates, hreadOff.returned.symm, hhanded, fun hfinished => ?_⟩
    have hexhausted := ((settled_start _ w).after hk ops).exhausted hfinished
    refine ⟨?_, hexhausted.unread⟩
    rw [hexhausted.pending, Candidates.currentMentions_nil]
    rfl

end Session

end ProviderDiscovery
