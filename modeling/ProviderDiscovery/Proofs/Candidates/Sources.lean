import ProviderDiscovery.Proofs.Candidates.Enumeration

/-!
# Where candidates come from

A search opens resources that have been located, and hands out names that it has read in them.
So what holds of all resources that are located holds of every resource that is opened, and what
holds of all names in such resources holds of every candidate. `Candidates.From` says so of a state
of the search; `From.next` says what a request keeps of it, and which resource is to blame when the
request fails.
-/

namespace ProviderDiscovery

/-- A candidate is **listed** by a resource of a kind when the resource lists its name. -/
def ListedBy (capability : CapabilityId) (files : FileTree) (E : Resource → Prop)
    (candidate : Candidate) : Prop :=
  ∃ r, E r ∧ r.id = candidate.resource ∧
    ∃ names, r.namesIn capability files = .ok names ∧ candidate.name ∈ names

theorem ListedBy.mono {capability : CapabilityId} {files : FileTree} {E F : Resource → Prop}
    (hEF : ∀ r, E r → F r) {candidate : Candidate} (h : ListedBy capability files E candidate) :
    ListedBy capability files F candidate := by
  obtain ⟨r, hr, hid, hlisted⟩ := h
  exact ⟨r, hEF r hr, hid, hlisted⟩

namespace Candidates

/-- The candidates come **from** resources of a kind `E`, with names of a kind `L`: a resource that
is still to be opened is of the one, and a name that is still to be looked at of the other. -/
structure From (E : Resource → Prop) (L : Candidate → Prop) (c : Candidates) : Prop where
  unread : ∀ rs, c.unread = some rs → ∀ r ∈ rs, E r
  pending : ∀ resource, c.current = some resource → ∀ name ∈ c.pending, L ⟨name, resource⟩
  upcoming : ∀ candidate, c.upcoming = some candidate → L candidate

variable {E F : Resource → Prop} {L M : Candidate → Prop} {c c' : Candidates}

/-- At the start there is nothing to come from anywhere. -/
theorem from_start (E : Resource → Prop) (L : Candidate → Prop) (capability : CapabilityId)
    (scope : Scope) : (start capability scope).From E L :=
  ⟨nofun, nofun, nofun⟩

namespace From

theorem mono (h : c.From E L) (hEF : ∀ r, E r → F r)
    (hLM : ∀ candidate, L candidate → M candidate) : c.From F M :=
  ⟨fun rs hrs r hr => hEF r (h.unread rs hrs r hr),
    fun resource hcurrent name hname => hLM _ (h.pending resource hcurrent name hname),
    fun candidate hupcoming => hLM _ (h.upcoming candidate hupcoming)⟩

/-- Looking through pending names finds one of them. -/
theorem searchPending (h : c.From E L) (known : String → Bool) {names : List String}
    (hnames : ∀ resource, c.current = some resource → ∀ name ∈ names, L ⟨name, resource⟩) :
    (c.searchPending known names).2.From E L := by
  induction names with
  | nil => exact ⟨h.unread, nofun, h.upcoming⟩
  | cons name rest ih =>
    have hrest : ∀ resource, c.current = some resource → ∀ name ∈ rest, L ⟨name, resource⟩ :=
      fun resource hcurrent other hother =>
        hnames resource hcurrent other (List.mem_cons_of_mem _ hother)
    rw [Candidates.searchPending]
    split
    · exact ih hrest
    · split
      · rename_i resource hcurrent
        refine ⟨h.unread, hrest, fun candidate hcandidate => ?_⟩
        obtain rfl := Option.some.inj hcandidate
        exact hnames resource hcurrent name List.mem_cons_self
      · exact ih hrest

/-- Resources of the kind are still to be opened. -/
theorem unreadSome (h : c.From E L) {rs : List Resource} (hrs : ∀ r ∈ rs, E r) :
    From E L { c with unread := some rs } := by
  refine ⟨fun rs' hrs' => ?_, h.pending, h.upcoming⟩
  obtain rfl := Option.some.inj hrs'
  exact hrs

/-- The names of a resource of the kind are looked at next. -/
theorem openedNext {capability : CapabilityId} {files : FileTree} (h : c.From E L)
    (hL : ∀ candidate, ListedBy capability files E candidate → L candidate) {r : Resource}
    (hr : E r) {names : List String} (hnames : r.namesIn capability files = .ok names) :
    From E L { c with current := some r.id, pending := names } := by
  refine ⟨h.unread, fun resource hresource name hname => ?_, h.upcoming⟩
  obtain rfl := Option.some.inj hresource
  exact hL _ ⟨r, hr, rfl, names, hnames, hname⟩

/-- A **search** through resources of the kind opens some of them, and one of these is to blame if
it fails. -/
theorem search (known : String → Bool) (rs : List Resource) {w : World} (h : c.From E L)
    (hrs : ∀ r ∈ rs, E r)
    (hL : ∀ candidate, ListedBy c.capability w.files E candidate → L candidate) :
    ∃ answer c' es, (search known rs c).run w = ((answer, c'), w.after es) ∧ c'.From E L ∧
      c'.capability = c.capability ∧ c'.scope = c.scope ∧
      (∀ e ∈ es, ∃ r, E r ∧ e = .opened r) ∧
      ∀ e, answer = .error e →
        ∃ r, E r ∧ .opened r ∈ es ∧ r.namesIn c.capability w.files = .error e := by
  -- The induction follows the resources: each resource without a fresh name moves the search on.
  induction rs generalizing c w with
  | nil =>
    have hpending := h.searchPending known h.pending
    rcases searchPending_cases known c c.pending [] with ⟨hp, -⟩ | ⟨name, rest, resource, hp, -⟩
    · rw [hp] at hpending
      exact ⟨_, _, [], run_search_of_not_found [] hp w, hpending.unreadSome (by simp), rfl, rfl,
        nofun, nofun⟩
    · rw [hp] at hpending
      exact ⟨.ok true, _, [], by rw [Candidates.search, hp]; rfl, hpending.unreadSome (by simp),
        rfl, rfl, nofun, nofun⟩
  | cons r rest ih =>
    obtain ⟨hr, hrest⟩ := List.forall_mem_cons.mp hrs
    have hpending := h.searchPending known h.pending
    rcases searchPending_cases known c c.pending [] with ⟨hp, -⟩ | ⟨name, names, resource, hp, -⟩
    · rw [hp] at hpending
      have hrun := run_search_of_not_found (r :: rest) hp w
      cases hnames : r.namesIn c.capability w.files with
      | error e =>
        refine ⟨.error e, _, [.opened r], hrun.trans (by simp only [hnames]),
          hpending.unreadSome hrest, rfl, rfl, by simpa using hr, fun e' he' => ?_⟩
        obtain rfl := Except.error.inj he'
        exact ⟨r, hr, List.mem_singleton_self _, hnames⟩
      | ok names =>
        obtain ⟨answer, c', es, hsearch, hfrom, hcapability, hscope, hopened, hfailed⟩ :=
          ih (c := { c with current := some r.id, pending := names }) (w := w.after [.opened r])
            (openedNext hpending hL hr hnames) hrest hL
        refine ⟨answer, c', .opened r :: es, ?_, hfrom, hcapability, hscope,
          List.forall_mem_cons.mpr ⟨⟨r, hr, rfl⟩, hopened⟩, fun e he => ?_⟩
        · rw [hrun]
          simp only [hnames]
          rw [hsearch, World.after_after]
          rfl
        · obtain ⟨blamed, hblamed, hmem, hfault⟩ := hfailed e he
          exact ⟨blamed, hblamed, List.mem_cons_of_mem _ hmem, hfault⟩
    · rw [hp] at hpending
      exact ⟨.ok true, _, [], by rw [Candidates.search, hp]; rfl, hpending.unreadSome hrs, rfl,
        rfl, nofun, nofun⟩

end From

/-- What has been done to get at a candidate, by the answer and the events, when candidates come
from resources of a kind. -/
structure Drawn {α : Type} (E : Resource → Prop) (L : Candidate → Prop) (c : Candidates)
    (w : World) (answer : Except DiscoveryError α) (c' : Candidates) (es : List Event) : Prop where
  /-- Candidates still come from resources of the kind. -/
  source : c'.From E L
  /-- Candidates of the same capability are looked for. -/
  capability : c'.capability = c.capability
  /-- They are looked for in the same scope. -/
  scope : c'.scope = c.scope
  /-- Either the resources cannot be located, or one that was opened is to blame. -/
  failed : ∀ e, answer = .error e →
    (c.unread = none ∧ ∃ cause, e = ⟨c.capability, .scope cause⟩ ∧
      ((c.scope.locate c.capability).run.run w).1 = .error cause) ∨
    ∃ r, E r ∧ .opened r ∈ es ∧ r.namesIn c.capability w.files = .error e
  /-- Only resources of the kind have been opened. -/
  opened : ∀ r, .opened r ∈ es → E r

/-- Locating opens nothing. -/
theorem opened_not_mem_of_asks {es : List Event} (hes : ∀ e ∈ es, e.asks) (r : Resource) :
    .opened r ∉ es := by
  intro hmem
  cases hes _ hmem

namespace From

section

variable {w : World} (h : c.From E L)
  (hlocate : c.unread = none → ∀ rs, ((c.scope.locate c.capability).run.run w).1 = .ok rs →
    ∀ r ∈ rs, E r)
  (hL : ∀ candidate, ListedBy c.capability w.files E candidate → L candidate)
include h hlocate hL

/-- Asking for another candidate locates the resources first, unless they have been located. -/
theorem hasNext (known : String → Bool) :
    ∃ answer c' es, (c.hasNext known).run w = ((answer, c'), w.after es) ∧
      Drawn E L c w answer c' es := by
  have hopened : ∀ {es : List Event}, (∀ e ∈ es, ∃ r, E r ∧ e = .opened r) →
      ∀ r, .opened r ∈ es → E r := fun hes r hr => by
    obtain ⟨r', hr', heq⟩ := hes _ hr
    rwa [Event.opened.inj heq]
  cases hupcoming : c.upcoming with
  | some candidate =>
    refine ⟨.ok true, c, [], ?_, h, rfl, rfl, nofun, nofun⟩
    rw [Candidates.hasNext, hupcoming]
    rfl
  | none =>
    cases hunread : c.unread with
    | some rs =>
      have hrun : c.hasNext known = Candidates.search known rs c := by
        simp [Candidates.hasNext, hupcoming, hunread]
      obtain ⟨answer, c', es, hsearch, hfrom, hcapability, hscope, hes, hfailed⟩ :=
        h.search known rs (h.unread rs hunread) hL
      exact ⟨answer, c', es, by rw [hrun, hsearch], hfrom, hcapability, hscope,
        fun e he => .inr (hfailed e he), hopened hes⟩
    | none =>
      obtain ⟨asked, hworld, hasked⟩ := c.scope.doesOnly_locate_asks c.capability w
      cases hlocated : ((c.scope.locate c.capability).run.run w).1 with
      | error cause =>
        have hrun : (c.scope.locate c.capability).run.run w = (.error cause, w.after asked) :=
          Prod.ext hlocated hworld
        exact ⟨_, c, asked, run_hasNext_of_unlocated known hupcoming hunread hrun, h, rfl, rfl,
          fun e he => .inl ⟨hunread, cause, (Except.error.inj he).symm, hlocated⟩,
          fun r hr => absurd hr (opened_not_mem_of_asks hasked r)⟩
      | ok rs =>
        have hrun : (c.scope.locate c.capability).run.run w = (.ok rs, w.after asked) :=
          Prod.ext hlocated hworld
        obtain ⟨answer, c', es, hsearch, hfrom, hcapability, hscope, hes, hfailed⟩ :=
          h.search known rs (w := w.after asked) (hlocate hunread rs hlocated) hL
        refine ⟨answer, c', asked ++ es, ?_, hfrom, hcapability, hscope, fun e he => ?_,
          fun r hr => ?_⟩
        · rw [run_hasNext_of_located known hupcoming hunread hrun, hsearch, World.after_after]
        · obtain ⟨r, hr, hmem, hfault⟩ := hfailed e he
          exact .inr ⟨r, hr, List.mem_append_right _ hmem, hfault⟩
        · rcases List.mem_append.mp hr with hr | hr
          · exact absurd hr (opened_not_mem_of_asks hasked r)
          · exact hopened hes r hr

/-- **A request for a candidate**, whatever the scope and the resources do: what holds of the
resources that are located holds of those that are opened, and a candidate that is handed out is
listed by one of them. -/
theorem next (known : String → Bool) :
    ∃ answer c' es, (c.next known).run w = ((answer, c'), w.after es) ∧
      Drawn E L c w answer c' es ∧ ∀ candidate, answer = .ok (some candidate) → L candidate := by
  obtain ⟨answer, c', es, hrun, hdrawn⟩ := hasNext h hlocate hL known
  rw [Candidates.next, Action.run_bind, hrun]
  rcases answer with e | _ | _
  · refine ⟨.error e, c', es, rfl, ⟨hdrawn.source, hdrawn.capability, hdrawn.scope,
      fun e' he' => hdrawn.failed e' ?_, hdrawn.opened⟩, by simp⟩
    rw [Except.error.inj he']
  · exact ⟨.ok none, c', es, rfl,
      ⟨hdrawn.source, hdrawn.capability, hdrawn.scope, by simp, hdrawn.opened⟩, by simp⟩
  · cases hupcoming : c'.upcoming with
    | none =>
      refine ⟨.ok none, c', es, ?_,
        ⟨hdrawn.source, hdrawn.capability, hdrawn.scope, by simp, hdrawn.opened⟩, by simp⟩
      simp only [hupcoming]
      rfl
    | some candidate =>
      have hsource := hdrawn.source
      refine ⟨.ok (some candidate),
        { c' with upcoming := none, returned := c'.returned ++ [candidate.name] }, es, ?_,
        ⟨⟨hsource.unread, hsource.pending, by simp⟩, hdrawn.capability, hdrawn.scope, by simp,
          hdrawn.opened⟩, fun candidate' hcandidate => ?_⟩
      · simp only [hupcoming]
        rfl
      · obtain rfl := Option.some.inj (Except.ok.inj hcandidate)
        exact hsource.upcoming candidate hupcoming

end

end From

/-! ### Locating comes first -/

/-- A request for a candidate locates the resources before it does anything else, unless they have
been located. -/
theorem exists_run_next_of_unlocated (known : String → Bool) {w : World} (hu : c.upcoming = none)
    (hunread : c.unread = none) :
    ∃ asked es, ((c.scope.locate c.capability).run.run w).2 = w.after asked ∧
      ((c.next known).run w).2 = w.after (asked ++ es) := by
  obtain ⟨asked, hworld, -⟩ := c.scope.doesOnly_locate_asks c.capability w
  cases hlocated : ((c.scope.locate c.capability).run.run w).1 with
  | error cause =>
    have hlocate : (c.scope.locate c.capability).run.run w = (.error cause, w.after asked) :=
      Prod.ext hlocated hworld
    exact ⟨asked, [], hworld,
      by rw [run_next_of_unlocated known hu hunread hlocate, List.append_nil]⟩
  | ok rs =>
    have hlocate : (c.scope.locate c.capability).run.run w = (.ok rs, w.after asked) :=
      Prod.ext hlocated hworld
    have hfrom : c.From (fun _ => True) (fun _ => True) :=
      ⟨fun _ _ _ _ => trivial, fun _ _ _ _ => trivial, fun _ _ => trivial⟩
    obtain ⟨answer, c', es, hsearch, -⟩ :=
      hfrom.search known rs (w := w.after asked) (fun _ _ => trivial) fun _ _ => trivial
    refine ⟨asked, es, hworld, ?_⟩
    rw [next, Action.run_bind, run_hasNext_of_located known hu hunread hlocate, hsearch,
      World.after_after]
    rcases answer with e | _ | _
    · rfl
    · rfl
    · cases hupcoming : c'.upcoming <;> simp only [hupcoming] <;> rfl

end Candidates

end ProviderDiscovery
