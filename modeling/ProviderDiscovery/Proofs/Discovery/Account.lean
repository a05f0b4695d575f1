import ProviderDiscovery.Proofs.Candidates.Sources
import ProviderDiscovery.Proofs.Discovery.Blame
import ProviderDiscovery.Proofs.Discovery.Requests

/-!
# Every error is accounted for

An error of a discovery names something that is to blame: the scope, a resource that has been
opened, a candidate that has been taken up, or the authority. `Discovery.accounted_of_run_advance`
shows so for one step, whatever kind of resources and candidates come up in it, and
`Session.every_error_blames` for all that passes yield in a session. What a session has enumerated
is a matter of its whole run, so the kinds of resources and candidates grow with each request and
are dropped by a reload.
-/

namespace ProviderDiscovery

/-! ### Steps -/

namespace Discovery

/-- A step of a discovery **locates** the resources: in the course of it the scope is asked for
them, and this is its answer. -/
def Locates (d : Discovery) (w : World) (es : List Event)
    (answer : Except ScopeError (List Resource)) : Prop :=
  ∃ front asked back, es = front ++ asked ++ back ∧
    (d.scope.locate d.capability).run.run (w.after front) =
      (answer, w.after (front ++ asked))

/-- What a fault of a step is **blamed** on, when resources of a kind `E` can be opened and names of
a kind `L` are handed out. -/
inductive Blames (d : Discovery) (E : Resource → Prop) (L : Candidate → Prop) (w : World)
    (es : List Event) : DiscoveryFault → Prop where
  /-- The scope, which could not say what resources it has. -/
  | scope {cause : ScopeError} (hlocates : d.Locates w es (.error cause)) :
      Blames d E L w es (.scope cause)
  /-- A resource, which has been opened. -/
  | resource {r : Resource} {fault : DiscoveryFault} (hr : E r) (hopened : .opened r ∈ es)
      (hblames : r.Blames w.files fault) : Blames d E L w es fault
  /-- A candidate, which has been taken up and declined. -/
  | candidate {candidate : Candidate} {fault : DiscoveryFault} (hcandidate : L candidate)
      (htaken : .accepting candidate.name candidate.resource ∈ es)
      (hdeclines : d.resolver.Declines d.contract w es candidate.name fault) :
      Blames d E L w es fault
  /-- The authority, which denied the step. -/
  | authority {reason : String} (hdenies : d.authority.Denies w es reason) :
      Blames d E L w es (.privilegeDenied reason)

variable {d d' : Discovery} {E : Resource → Prop} {L : Candidate → Prop} {w : World}
  {es : List Event}

theorem Locates.append {answer : Except ScopeError (List Resource)} (h : d.Locates w es answer)
    (more : List Event) : d.Locates w (es ++ more) answer := by
  obtain ⟨front, asked, back, rfl, hrun⟩ := h
  exact ⟨front, asked, back ++ more, by simp, hrun⟩

/-- What is blamed does not depend on what has been found so far. -/
theorem Blames.of_setting {i : Instances Provider} {c : Candidates} {fault : DiscoveryFault}
    (h : Blames { d with instances := i, candidates := c } E L w es fault) :
    d.Blames E L w es fault := by
  cases h with
  | scope hlocates => exact .scope hlocates
  | resource hr hopened hblames => exact .resource hr hopened hblames
  | candidate hcandidate htaken hdeclines => exact .candidate hcandidate htaken hdeclines
  | authority hdenies => exact .authority hdenies

/-- What a step of a discovery is to be **accounted** for, by its answer and its events. -/
structure Accounted {α : Type} (d : Discovery) (E : Resource → Prop) (L : Candidate → Prop)
    (w : World) (answer : Except DiscoveryError α) (d' : Discovery) (es : List Event) : Prop where
  /-- Candidates still come from resources of the kind. -/
  source : d'.candidates.From E L
  /-- They are looked for in the same scope. -/
  scope : d'.candidates.scope = d.candidates.scope
  /-- Only resources of the kind have been opened. -/
  opened : ∀ r, .opened r ∈ es → E r
  /-- An error is one of this capability, and something is to blame. -/
  blamed : ∀ e, answer = .error e → e.capability = d.capability ∧ d.Blames E L w es e.fault

/-- Entering an authority opens nothing. -/
theorem opened_not_mem_entry (a : Authority) (r : Resource) : .opened r ∉ a.entry := by
  cases a <;> simp [Authority.entry]

/-- An acceptance that fails was denied, or the name was declined. -/
theorem exists_run_acceptName (d : Discovery) (name : String) (w : World) :
    ∃ answer i es, (d.acceptName name).run w = ((answer, { d with instances := i }), w.after es) ∧
      (∀ r, .opened r ∉ es) ∧
      ∀ e, answer = .error e → e.capability = d.capability ∧
        (d.resolver.Declines d.contract w es name e.fault ∨
          ∃ reason, e.fault = .privilegeDenied reason ∧ d.authority.Denies w es reason) := by
  by_cases hruns : (d.authority.entranceIn w).runs = 0
  · have hdenied := Authority.run_of_runs_eq_zero hruns d.capability
      (accept d.resolver d.contract d.capability name) d.instances
    rw [Authority.enter_eq_after_entry] at hdenied
    refine ⟨.error ⟨d.capability, .privilegeDenied (d.authority.denial (d.authority.entranceIn w))⟩,
      d.instances, d.authority.entry, ?_, opened_not_mem_entry _, fun e he => ?_⟩
    · rw [acceptName, Action.run_bind, hdenied]
      rfl
    · obtain rfl := Except.error.inj he
      exact ⟨rfl, .inr ⟨_, rfl, Authority.denies_of_runs_eq_zero hruns⟩⟩
  · obtain ⟨given, i, fs, haccept, hdeclined⟩ := exists_run_accept d.resolver d.contract
      d.capability name d.instances (w.after d.authority.entry)
    obtain ⟨gs, hworld, haccepts⟩ := doesOnly_accept d.resolver d.contract d.capability name
      d.instances (w.after d.authority.entry)
    rw [haccept] at hworld
    obtain rfl : fs = gs := World.after_inj hworld
    have hdone := Authority.run_of_runs_ne_zero hruns d.capability
      (accept d.resolver d.contract d.capability name) d.instances
    rw [Authority.enter_eq_after_entry, haccept, World.after_after] at hdone
    refine ⟨(d.authority.release w d.capability given).bind id, i, d.authority.entry ++ fs, ?_,
      fun r hr => ?_, fun e he => ?_⟩
    · rw [acceptName, Action.run_bind, hdone]
      rfl
    · rcases List.mem_append.mp hr with hr | hr
      · exact opened_not_mem_entry _ r hr
      · cases haccepts _ hr
    · rcases Authority.release_eq_error he with hgiven | ⟨reason, rfl, hdenies⟩
      · obtain ⟨hcapability, hdeclines⟩ := hdeclined e hgiven
        exact ⟨hcapability, .inl hdeclines.shift⟩
      · exact ⟨rfl, .inr ⟨reason, rfl, hdenies.append fs⟩⟩

/-- A search that is carried out locates the resources, unless they have been located. -/
theorem locates_of_run_nextCandidate {answer : Except DiscoveryError (Option Candidate)}
    (hu : d.candidates.upcoming = none) (hcapability : d.candidates.capability = d.capability)
    (hscope : d.candidates.scope = d.scope) (hruns : (d.authority.entranceIn w).runs ≠ 0)
    (hunread : d.candidates.unread = none)
    (hrun : d.nextCandidate.run w = ((answer, d'), w.after es)) :
    d.Locates w es ((d.scope.locate d.capability).run.run (w.after d.authority.entry)).1 := by
  obtain ⟨asked, more, hlocate, hnext⟩ := Candidates.exists_run_next_of_unlocated
    d.instances.contains (w := w.after d.authority.entry) hu hunread
  rw [hcapability, hscope, World.after_after] at hlocate
  have hworld : (d.nextCandidate.run w).2 = w.after (d.authority.entry ++ (asked ++ more)) := by
    rw [nextCandidate, Action.run_bind, Authority.run_of_runs_ne_zero hruns,
      Authority.enter_eq_after_entry, ← World.after_after]
    exact hnext
  rw [hrun] at hworld
  refine ⟨d.authority.entry, asked, more, ?_, Prod.ext rfl hlocate⟩
  rw [World.after_inj hworld, List.append_assoc]

section

variable (hu : d.candidates.upcoming = none) (hcapability : d.candidates.capability = d.capability)
  (hscope : d.candidates.scope = d.scope) (hfrom : d.candidates.From E L)
  (hE : ∀ rs, d.Locates w es (.ok rs) → ∀ r ∈ rs, E r)
  (hL : ∀ candidate, ListedBy d.capability w.files E candidate → L candidate)
include hu hcapability hscope hfrom hE hL

/-- **The search of a step is accounted for.** -/
theorem accounted_of_run_nextCandidate {answer : Except DiscoveryError (Option Candidate)}
    (hrun : d.nextCandidate.run w = ((answer, d'), w.after es)) :
    d.Accounted E L w answer d' es ∧
      ∀ candidate, answer = .ok (some candidate) → L candidate := by
  by_cases hruns : (d.authority.entranceIn w).runs = 0
  · have hdenied := Authority.run_of_runs_eq_zero hruns d.capability
      (Candidates.next d.instances.contains) d.candidates
    rw [nextCandidate, Action.run_bind, hdenied, Authority.enter_eq_after_entry] at hrun
    obtain ⟨hpair, hworld⟩ := Prod.mk.inj hrun
    obtain ⟨rfl, rfl⟩ := Prod.mk.inj hpair
    obtain rfl : d.authority.entry = es := World.after_inj hworld
    refine ⟨⟨hfrom, rfl, fun r hr => absurd hr (opened_not_mem_entry _ r), fun e he => ?_⟩,
      fun _ hc => by cases hc⟩
    obtain rfl := Except.error.inj he
    exact ⟨rfl, .authority (Authority.denies_of_runs_eq_zero hruns)⟩
  · have hlocates := fun hunread =>
      locates_of_run_nextCandidate hu hcapability hscope hruns hunread hrun
    rw [← hcapability, ← hscope] at hlocates
    obtain ⟨given, c, fs, hnext, hdrawn, hcandidate⟩ :=
      hfrom.next (w := w.after d.authority.entry)
        (fun hunread rs hrs => hE rs (hrs ▸ hlocates hunread))
        (by rw [hcapability]; exact hL) d.instances.contains
    have hdone := Authority.run_of_runs_ne_zero hruns d.capability
      (Candidates.next d.instances.contains) d.candidates
    rw [Authority.enter_eq_after_entry, hnext, World.after_after] at hdone
    rw [nextCandidate, Action.run_bind, hdone] at hrun
    obtain ⟨hpair, hworld⟩ := Prod.mk.inj hrun
    obtain ⟨hanswer, rfl⟩ := Prod.mk.inj hpair
    obtain rfl : d.authority.entry ++ fs = es := World.after_inj hworld
    refine ⟨⟨hdrawn.source, hdrawn.scope, fun r hr => ?_, fun e he => ?_⟩, fun candidate hc => ?_⟩
    · exact hdrawn.opened r
        ((List.mem_append.mp hr).resolve_left (opened_not_mem_entry d.authority r))
    · rcases Authority.release_eq_error (hanswer.trans he) with hgiven | ⟨reason, rfl, hdenies⟩
      · rcases hdrawn.failed e hgiven with ⟨hunread, cause, rfl, hcause⟩ | ⟨r, hr, hmem, hfault⟩
        · exact ⟨hcapability, .scope (hcause ▸ hlocates hunread)⟩
        · obtain ⟨hcap, hblames⟩ := Resource.blames_of_namesIn hfault
          exact ⟨hcap.trans hcapability, .resource hr (List.mem_append_right _ hmem) hblames⟩
      · exact ⟨rfl, .authority (hdenies.append fs)⟩
    · exact hcandidate candidate (Authority.eq_ok_of_release (hanswer.trans hc))

/-- **A step of a discovery is accounted for.** -/
theorem accounted_of_run_advance {answer : Except DiscoveryError (Option Provider)}
    (hrun : d.advance.run w = ((answer, d'), w.after es)) : d.Accounted E L w answer d' es := by
  obtain ⟨found, c, searched, -, hsearch, -⟩ := d.run_nextCandidate w hu
  have hsearched : ∀ more, searched ++ more = es →
      d.Accounted E L w found { d with candidates := c } searched ∧
        ∀ candidate, found = .ok (some candidate) → L candidate := by
    rintro more rfl
    exact accounted_of_run_nextCandidate hu hcapability hscope hfrom
      (fun rs hrs => hE rs (hrs.append more)) hL hsearch
  rcases found with e | _ | candidate
  · rw [run_advance_of_error hsearch] at hrun
    obtain ⟨hpair, hworld⟩ := Prod.mk.inj hrun
    obtain ⟨rfl, rfl⟩ := Prod.mk.inj hpair
    obtain rfl := World.after_inj hworld
    obtain ⟨haccounted, -⟩ := hsearched [] (List.append_nil _)
    refine ⟨haccounted.source, haccounted.scope, haccounted.opened, fun e' he' => ?_⟩
    exact haccounted.blamed e' (congrArg Except.error (Except.error.inj he'))
  · rw [run_advance_of_none hsearch] at hrun
    obtain ⟨hpair, hworld⟩ := Prod.mk.inj hrun
    obtain ⟨rfl, rfl⟩ := Prod.mk.inj hpair
    obtain rfl := World.after_inj hworld
    obtain ⟨haccounted, -⟩ := hsearched [] (List.append_nil _)
    exact ⟨haccounted.source, haccounted.scope, haccounted.opened, nofun⟩
  · obtain ⟨given, i, fs, haccept, hopened, hdeclined⟩ :=
      exists_run_acceptName { d with candidates := c } candidate.name
        (w.after (searched ++ [.accepting candidate.name candidate.resource]))
    rw [run_advance_of_candidate hsearch haccept] at hrun
    obtain ⟨hpair, hworld⟩ := Prod.mk.inj hrun
    obtain ⟨rfl, rfl⟩ := Prod.mk.inj hpair
    obtain rfl := World.after_inj hworld
    obtain ⟨haccounted, hcandidate⟩ := hsearched _ rfl
    have hevents : searched ++ .accepting candidate.name candidate.resource :: fs =
        searched ++ [.accepting candidate.name candidate.resource] ++ fs := by simp
    refine ⟨haccounted.source, haccounted.scope, fun r hr => ?_, fun e he => ?_⟩
    · rcases List.mem_append.mp hr with hr | hr
      · exact haccounted.opened r hr
      · rcases List.mem_cons.mp hr with hr | hr
        · cases hr
        · exact absurd hr (hopened r)
    · cases given with
      | ok provider => cases he
      | error e' =>
        obtain rfl : e' = e := Except.error.inj he
        obtain ⟨hcap, hdeclines | ⟨reason, hfault, hdenies⟩⟩ := hdeclined e' rfl
        · refine ⟨hcap, .candidate (hcandidate candidate rfl)
            (List.mem_append_right _ List.mem_cons_self) ?_⟩
          rw [hevents]
          exact hdeclines.shift
        · refine ⟨hcap, ?_⟩
          rw [hfault, hevents]
          exact .authority hdenies.shift

end

end Discovery

/-! ### Sessions -/

namespace Session

/-- A resource is **enumerated** in a run of operations: since the last reload a request has located
the resources, and it is one of them. -/
def Enumerates (first : Session) (ops : List Operation) (r : Resource) : Prop :=
  ∃ before behind rs, ops = before ++ .next :: behind ∧
    (∀ op ∈ behind, op.isReload = false) ∧
    first.discovery.Locates (first.after before).world ((first.after before).done .next) (.ok rs) ∧
    r ∈ rs

/-- A candidate is **listed** in a run of operations: since the last reload there was a request at
which a resource that had been enumerated listed it. -/
def Lists (first : Session) (ops : List Operation) (candidate : Candidate) : Prop :=
  ∃ before behind, ops = before ++ .next :: behind ∧ (∀ op ∈ behind, op.isReload = false) ∧
    ListedBy first.discovery.capability (first.after before).world.files
      (first.Enumerates (before ++ [.next])) candidate

variable {first : Session} {ops more : List Operation} {op : Operation}

/-- A run that goes on without a reload forgets no resource. -/
theorem Enumerates.append {r : Resource} (h : first.Enumerates ops r)
    (hmore : ∀ op ∈ more, op.isReload = false) : first.Enumerates (ops ++ more) r := by
  obtain ⟨before, behind, rs, rfl, hbehind, hlocates, hr⟩ := h
  exact ⟨before, behind ++ more, rs, by simp, List.forall_mem_append.mpr ⟨hbehind, hmore⟩,
    hlocates, hr⟩

/-- Nor a candidate. -/
theorem Lists.append {candidate : Candidate} (h : first.Lists ops candidate)
    (hmore : ∀ op ∈ more, op.isReload = false) : first.Lists (ops ++ more) candidate := by
  obtain ⟨before, behind, rfl, hbehind, hlisted⟩ := h
  exact ⟨before, behind ++ more, by simp, List.forall_mem_append.mpr ⟨hbehind, hmore⟩, hlisted⟩

/-- An error **has a cause** in a run of operations when a request in it yielded the error, and its
fault is to be blamed on what happened in the course of that request. -/
def HasCause (first : Session) (ops : List Operation) (e : DiscoveryError) : Prop :=
  ∃ before behind, ops = before ++ .next :: behind ∧
    (first.after (before ++ [.next])).answers =
      (first.after before).answers ++ [some (.error e)] ∧
    first.discovery.Blames (first.Enumerates (before ++ [.next])) (first.Lists (before ++ [.next]))
      (first.after before).world ((first.after before).done .next) e.fault

theorem HasCause.append {e : DiscoveryError} (h : first.HasCause ops e) (op : Operation) :
    first.HasCause (ops ++ [op]) e := by
  obtain ⟨before, behind, rfl, hanswer, hblames⟩ := h
  exact ⟨before, behind ++ [op], by simp, hanswer, hblames⟩

/-- What holds of a session **so far**, after a run of operations: candidates come from what was
enumerated, and all errors have a cause. -/
structure SoFar (first : Session) (ops : List Operation) : Prop where
  /-- Candidates come from enumerated resources, and are listed by them. -/
  source : (first.after ops).discovery.candidates.From (first.Enumerates ops) (first.Lists ops)
  /-- They are looked for in the scope of the discovery. -/
  scope : (first.after ops).discovery.candidates.scope = first.discovery.scope
  /-- Every error that the pass in hand has yielded has a cause. -/
  errors : ∀ e, some (.error e) ∈ (first.after ops).answers →
    e.capability = first.discovery.capability ∧ first.HasCause ops e

theorem after_concat (first : Session) (ops : List Operation) (op : Operation) :
    first.after (ops ++ [op]) = (first.after ops).step op :=
  first.after_append ops [op]

/-- Candidates come from what has been enumerated before. -/
theorem from_append {c : Candidates} (h : c.From (first.Enumerates ops) (first.Lists ops))
    {more : List Operation} (hmore : ∀ op ∈ more, op.isReload = false) :
    c.From (first.Enumerates (ops ++ more)) (first.Lists (ops ++ more)) :=
  h.mono (fun _ hr => hr.append hmore) fun _ hc => hc.append hmore

/-- An operation that leaves the candidates adds no error. -/
theorem SoFar.of_candidates_eq (h : first.SoFar ops) (hop : op.isReload = false)
    (hcandidates : (first.after (ops ++ [op])).discovery.candidates =
      (first.after ops).discovery.candidates)
    (hanswers : ∀ e, some (.error e) ∈ (first.after (ops ++ [op])).answers →
      some (.error e) ∈ (first.after ops).answers) : first.SoFar (ops ++ [op]) where
  source := by
    rw [hcandidates]
    exact from_append h.source (List.forall_mem_singleton.mpr hop)
  scope := by rw [hcandidates, h.scope]
  errors := fun e he => by
    obtain ⟨hcapability, hcause⟩ := h.errors e (hanswers e he)
    exact ⟨hcapability, hcause.append op⟩

/-- A request keeps to it: the step that it makes the discovery take is accounted for. -/
theorem SoFar.next (hk : first.Kept) (h : first.SoFar ops) : first.SoFar (ops ++ [.next]) := by
  have hkept := hk.after ops
  have hafter : first.after (ops ++ [.next]) = (first.after ops).next :=
    first.after_concat ops .next
  obtain ⟨i, c, hsetting⟩ := hk.setting_after ops
  have hrequested := requested_next hkept.upcoming
  generalize hnext : (first.after ops).next = t, hdone : (first.after ops).done .next = es
    at hrequested
  cases hrequested with
  | idle hp => exact h.of_candidates_eq rfl (by rw [hafter, hnext]) (by rw [hafter, hnext]; simp)
  | ended hp hended =>
    exact h.of_candidates_eq rfl (by rw [hafter, hnext]) (by rw [hafter, hnext]; simp)
  | replayed hp hopen hslot =>
    exact h.of_candidates_eq rfl (by rw [hafter, hnext]) (by rw [hafter, hnext]; simp [slotAnswer])
  | @stepped p answer d es hp hopen hslot hrun =>
    have hcapability := hkept.capability
    have hscope := h.scope
    have hkeeps : ∀ op ∈ [Operation.next], op.isReload = false := List.forall_mem_singleton.mpr rfl
    have hsource := from_append h.source hkeeps
    have haccounted := Discovery.accounted_of_run_advance hkept.upcoming hcapability
      (by rw [hscope, hsetting]) hsource (fun rs hrs r hr => ?_) (fun candidate hc => ?_) hrun
    · refine ⟨?_, ?_, fun e he => ?_⟩
      · rw [hafter, hnext]
        exact haccounted.source
      · rw [hafter, hnext]
        exact haccounted.scope.trans hscope
      · rw [hafter, hnext] at he
        rcases List.mem_append.mp he with he | he
        · obtain ⟨hcap, hcause⟩ := h.errors e he
          exact ⟨hcap, hcause.append .next⟩
        · obtain rfl : answer = .error e := by
            rcases answer with e' | _ | provider <;> simp [Pass.answered] at he
            rw [he]
          obtain ⟨hcap, hblames⟩ := haccounted.blamed e rfl
          rw [hsetting] at hcap hblames
          refine ⟨hcap, ops, [], rfl, by rw [hafter, hnext]; rfl, ?_⟩
          rw [hdone]
          exact hblames.of_setting
    · rw [hsetting] at hrs
      exact ⟨ops, [], rs, rfl, nofun, hdone ▸ hrs, hr⟩
    · rw [hsetting] at hc
      exact ⟨ops, [], rfl, nofun, hc⟩

/-- Every operation keeps to it. -/
theorem SoFar.step (hk : first.Kept) (h : first.SoFar ops) (op : Operation) :
    first.SoFar (ops ++ [op]) := by
  cases op with
  | next => exact h.next hk
  | iterate =>
    refine h.of_candidates_eq rfl (by rw [after_concat]; rfl) fun e he => ?_
    rw [after_concat] at he
    cases he
  | reload =>
    refine ⟨?_, ?_, fun e he => ?_⟩
    · rw [after_concat]
      exact Candidates.from_start ..
    · rw [after_concat]
      obtain ⟨i, c, hsetting⟩ := hk.setting_after ops
      change (first.after ops).discovery.scope = _
      rw [hsetting]
    · rw [after_concat] at he
      cases he
  | remove =>
    refine h.of_candidates_eq rfl (by rw [after_concat]; rfl) fun e he => ?_
    rw [after_concat] at he
    exact he
  | meanwhile files registry others =>
    refine h.of_candidates_eq rfl (by rw [after_concat]; rfl) fun e he => ?_
    rw [after_concat] at he
    exact he

/-- A run of operations keeps to it. -/
theorem SoFar.append (hk : first.Kept) (h : first.SoFar ops) (more : List Operation) :
    first.SoFar (ops ++ more) := by
  induction more generalizing ops with
  | nil =>
    rw [List.append_nil]
    exact h
  | cons op rest ih =>
    rw [List.append_cons]
    exact ih (h.step hk op)

/-! ### What is opened -/

/-- What holds of all resources that the scope can locate holds of every resource that is opened in
a session, whatever happens meanwhile. -/
theorem Kept.opened_trace {s : Session} (hk : s.Kept) {E : Resource → Prop}
    (hfrom : s.discovery.candidates.From E fun _ => True)
    (hscope : s.discovery.candidates.scope = s.discovery.scope)
    (hE : ∀ w rs, ((s.discovery.scope.locate s.discovery.capability).run.run w).1 = .ok rs →
      ∀ r ∈ rs, E r) (ops : List Operation) :
    ∀ r, .opened r ∈ s.trace ops → E r := by
  induction ops generalizing s with
  | nil => exact fun r hr => by cases hr
  | cons op rest ih =>
    obtain ⟨i, c, hsetting⟩ := hk.setting_step op
    have hlocated : ∀ w rs, (((s.step op).discovery.scope.locate
        (s.step op).discovery.capability).run.run w).1 = .ok rs → ∀ r ∈ rs, E r := by
      rw [hsetting]
      exact hE
    have hstep : (s.step op).discovery.candidates.From E (fun _ => True) ∧
        (s.step op).discovery.candidates.scope = (s.step op).discovery.scope ∧
        ∀ r, .opened r ∈ s.done op → E r := by
      cases op with
      | next =>
        rw [Session.step] at hsetting ⊢
        have hrequested := requested_next hk.upcoming
        generalize s.next = t, s.done .next = es at hrequested hsetting ⊢
        cases hrequested with
        | stepped hp hopen hslot hrun =>
          have haccounted := Discovery.accounted_of_run_advance hk.upcoming hk.capability hscope
            hfrom (fun rs hrs => ?_) (fun _ _ => trivial) hrun
          · refine ⟨haccounted.source, haccounted.scope.trans ?_, haccounted.opened⟩
            rw [hscope, hsetting]
          · obtain ⟨front, asked, back, -, hlocate⟩ := hrs
            exact hE _ rs (congrArg Prod.fst hlocate)
        | _ => exact ⟨hfrom, hscope, by simp⟩
      | reload => exact ⟨Candidates.from_start .., rfl, by simp [done]⟩
      | _ => exact ⟨hfrom, hscope, by simp [done]⟩
    intro r hr
    rcases List.mem_append.mp hr with hr | hr
    · exact hstep.2.2 r hr
    · exact ih (hk.step op) hstep.1 hstep.2.1 hlocated r hr

end Session

/-! ### Contents that do not change -/

/-- The operation **leaves** files and types as they are. Others may do things meanwhile. -/
def Operation.Leaves (files : FileTree) (registry : Registry) : Operation → Prop
  | .meanwhile files' registry' _ => files' = files ∧ registry' = registry
  | _ => True

namespace Session

variable {first : Session} {ops more : List Operation}

end Session

end ProviderDiscovery
