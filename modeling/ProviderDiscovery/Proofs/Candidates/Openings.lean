import ProviderDiscovery.Proofs.Candidates.Enumeration

/-!
# Which resources a search opens

A search opens the resources that are still to be opened one after the other, and stops at the first
one that fails or mentions a new name. `Candidates.Opened` says what has become of the candidates
when it has opened some of them: the others are still to be opened, nothing new is mentioned in what
was pending and in the resources that were opened before the last one, and what is mentioned in all
of them is the mention that was met and the names that are pending now. Files are read at the time
of the search only, so what is pending does not depend on what they hold later. So the candidates
that have been handed out can be read off what was mentioned when the resources were opened
(`Candidates.ReadOff`).
-/

namespace ProviderDiscovery

/-! ### Events -/

/-- The resource that was opened. -/
def Event.opened? : Event → Option Resource
  | .opened r => some r
  | _ => none

/-- The candidate that was taken up for acceptance. -/
def Event.accepted? : Event → Option Candidate
  | .accepting name resource => some ⟨name, resource⟩
  | _ => none

/-- The resources that were opened, in the order of the events. -/
def openedResources (es : List Event) : List Resource := es.filterMap Event.opened?

/-- The candidates that were taken up for acceptance, in the order of the events. -/
def takenUp (es : List Event) : List Candidate := es.filterMap Event.accepted?

theorem openedResources_append (es fs : List Event) :
    openedResources (es ++ fs) = openedResources es ++ openedResources fs :=
  List.filterMap_append

theorem takenUp_append (es fs : List Event) : takenUp (es ++ fs) = takenUp es ++ takenUp fs :=
  List.filterMap_append

/-- The openings of resources are seen as such. -/
theorem openedResources_map_opened (rs : List Resource) :
    openedResources (rs.map .opened) = rs := by
  rw [openedResources, List.filterMap_map]
  exact List.filterMap_some

theorem openedResources_eq_nil {es : List Event} (h : ∀ r, .opened r ∉ es) :
    openedResources es = [] := by
  refine List.filterMap_eq_nil_iff.mpr fun e he => ?_
  cases e with
  | opened r => exact absurd he (h r)
  | _ => rfl

/-- A scope that is asked opens nothing. -/
theorem openedResources_of_asks {es : List Event} (h : ∀ e ∈ es, e.asks) :
    openedResources es = [] := by
  refine openedResources_eq_nil fun r hr => ?_
  cases h _ hr

/-- No candidate is taken up in a search. -/
theorem takenUp_of_isSearch {es : List Event} (h : ∀ e ∈ es, e.isSearch) : takenUp es = [] := by
  refine List.filterMap_eq_nil_iff.mpr fun e he => ?_
  have hsearch := h e he
  cases e with
  | accepting name resource => cases hsearch
  | _ => rfl

/-- Taken up are the candidates of the names that are. -/
theorem map_name_takenUp (es : List Event) : (takenUp es).map (·.name) = triedNames es := by
  have hname : (fun e : Event => e.accepted?.map (·.name)) = Event.tried? := by
    funext e
    cases e <;> rfl
  rw [takenUp, List.map_filterMap, hname, triedNames]

namespace Candidates

variable {known : String → Bool} {c c' : Candidates} {w : World}

/-! ### What a search opens -/

/-- The state of candidates when some resources have been **opened**, and the rest not, until a
mention was met. -/
structure Opened (known : String → Bool) (files : FileTree) (c : Candidates)
    (new rest : List Resource) (met : Option Mention) (c' : Candidates) : Prop where
  capability : c'.capability = c.capability
  scope : c'.scope = c.scope
  unread : c'.unread = some rest
  returned : c'.returned = c.returned ++ (met.bind Mention.name?).toList
  /-- What is mentioned is what was met, and the names that are pending now. -/
  mentioned : firstMentions (c.isSkipped known)
      (c.currentMentions c.pending ++ mentions c.capability files new) =
    met.toList ++ firstMentions (c'.isSkipped known) (c'.currentMentions c'.pending)
  /-- A resource is opened only if nothing new has been mentioned before. -/
  exhausted : new ≠ [] → firstMentions (c.isSkipped known)
    (c.currentMentions c.pending ++ mentions c.capability files new.dropLast) = []

/-- Without a pending name that is not skipped only what comes behind counts. -/
theorem firstMentions_currentMentions_append (h : (c.searchPending known c.pending).1 = false)
    (l : List Mention) : firstMentions (c.isSkipped known) (c.currentMentions c.pending ++ l) =
      firstMentions (c.isSkipped known) l := by
  rcases searchPending_cases known c c.pending l with ⟨-, hl⟩ | ⟨name, rest, resource, hp, -⟩
  · exact hl
  · rw [hp] at h
    cases h

theorem currentMentions_nil (c : Candidates) : c.currentMentions [] = [] := by
  unfold currentMentions
  cases c.current <;> rfl

/-- A name that is pending is found before any resource is opened. -/
theorem opened_of_found {name : String} {rest : List String} {resource : ResourceId}
    (hfound : firstMentions (c.isSkipped known) (c.currentMentions c.pending) =
      .ok ⟨name, resource⟩ :: firstMentions (fun n => c.isSkipped known n || n == name)
        (c.currentMentions rest)) (files : FileTree) (rs : List Resource) :
    Opened known files c [] rs (some (.ok ⟨name, resource⟩)) (handedOut
      { c with pending := rest, upcoming := some ⟨name, resource⟩, unread := some rs }) := by
  refine ⟨rfl, rfl, rfl, rfl, ?_, fun hnew => absurd rfl hnew⟩
  have hnone : mentions c.capability files [] = [] := rfl
  rw [hnone, List.append_nil, hfound, ← isSkipped_handedOut known c none name]
  rfl

/-- **A search opens the first ones** of the resources that are still to be opened. -/
theorem exists_run_search (known : String → Bool) (rs : List Resource) (c : Candidates) (w : World)
    (hu : c.upcoming = none) :
    ∃ met c' new rest,
      (search known rs c).run w =
        (((Mention.answer met).map Option.isSome, c'), w.after (new.map .opened)) ∧
      rs = new ++ rest ∧ c'.upcoming = met.bind Except.toOption ∧
      Opened known w.files c new rest met c'.handedOut := by
  -- The induction follows the resources: each resource without a fresh name moves the search on.
  induction rs generalizing c w with
  | nil =>
    rcases searchPending_cases known c c.pending [] with ⟨hp, hl⟩ | ⟨name, names, resource, hp, hl⟩
    · refine ⟨none, _, [], [], run_search_of_not_found [] hp w, rfl, hu, ?_⟩
      rw [handedOut_of_upcoming_eq_none (by exact hu)]
      refine ⟨rfl, rfl, rfl, (List.append_nil _).symm, ?_, fun hnew => absurd rfl hnew⟩
      rw [currentMentions_nil]
      exact hl
    · rw [List.append_nil, List.append_nil] at hl
      refine ⟨some (.ok ⟨name, resource⟩), _, [], [], ?_, rfl, rfl, opened_of_found hl w.files []⟩
      rw [search, hp]
      rfl
  | cons r others ih =>
    rcases searchPending_cases known c c.pending [] with ⟨hp, -⟩ | ⟨name, names, resource, hp, hl⟩
    · have hrun := run_search_of_not_found (r :: others) hp w
      have hpending := firstMentions_currentMentions_append (congrArg Prod.fst hp)
      have hnone := hpending []
      cases hnames : r.namesIn c.capability w.files with
      | error e =>
        simp only [hnames] at hrun
        refine ⟨some (.error e), _, [r], others, hrun, rfl, hu, ?_⟩
        rw [handedOut_of_upcoming_eq_none (by exact hu)]
        refine ⟨rfl, rfl, rfl, (List.append_nil _).symm, ?_, fun _ => hnone⟩
        rw [hpending, mentions_cons_of_error hnames, currentMentions_nil]
        rfl
      | ok names =>
        simp only [hnames] at hrun
        obtain ⟨met, c', new, rest, hsearch, rfl, hupcoming, hopened⟩ :=
          ih { c with current := some r.id, pending := names } (w.after [.opened r]) hu
        rw [hsearch, World.after_after] at hrun
        refine ⟨met, c', r :: new, rest, hrun, rfl, hupcoming, hopened.capability, hopened.scope,
          hopened.unread, hopened.returned, ?_, fun _ => ?_⟩
        · rw [hpending, mentions_cons_of_ok hnames]
          exact hopened.mentioned
        · cases new with
          | nil => exact hnone
          | cons r' new =>
            rw [List.dropLast_cons_cons, hpending, mentions_cons_of_ok hnames]
            exact hopened.exhausted (List.cons_ne_nil r' new)
    · rw [List.append_nil, List.append_nil] at hl
      refine ⟨some (.ok ⟨name, resource⟩), _, [], r :: others, ?_, rfl, rfl,
        opened_of_found hl w.files (r :: others)⟩
      rw [search, hp]
      rfl

/-- Asking for another candidate opens the first ones of the resources that are still to be opened,
once they have been located. -/
theorem exists_run_hasNext (known : String → Bool) {rs : List Resource} (hu : c.upcoming = none)
    (hr : c.unopened w = .ok rs) :
    ∃ met c' new rest es,
      (c.hasNext known).run w = (((Mention.answer met).map Option.isSome, c'), w.after es) ∧
      openedResources es = new ∧ rs = new ++ rest ∧ c'.upcoming = met.bind Except.toOption ∧
      Opened known w.files c new rest met c'.handedOut := by
  cases hunread : c.unread with
  | some located =>
    rw [unopened, hunread] at hr
    obtain rfl := Except.ok.inj hr
    obtain ⟨met, c', new, rest, hrun, hrs, hupcoming, hopened⟩ :=
      exists_run_search known located c w hu
    refine ⟨met, c', new, rest, _, ?_, openedResources_map_opened new, hrs, hupcoming, hopened⟩
    rw [← hrun]
    simp [hasNext, hu, hunread]
  | none =>
    obtain ⟨asked, hworld, hasks⟩ := c.scope.doesOnly_locate_asks c.capability w
    rw [unopened, hunread] at hr
    have hlocate : (c.scope.locate c.capability).run.run w = (.ok rs, w.after asked) :=
      Prod.ext hr hworld
    obtain ⟨met, c', new, rest, hrun, hrs, hupcoming, hopened⟩ :=
      exists_run_search known rs c (w.after asked) hu
    refine ⟨met, c', new, rest, asked ++ new.map .opened, ?_, ?_, hrs, hupcoming,
      hopened⟩
    · rw [run_hasNext_of_located known hu hunread hlocate, hrun, World.after_after]
    · rw [openedResources_append, openedResources_of_asks hasks, openedResources_map_opened,
        List.nil_append]

/-- **A request for a candidate opens the first ones** of the resources that are still to be
opened. -/
theorem exists_run_next (known : String → Bool) {rs : List Resource} (hu : c.upcoming = none)
    (hr : c.unopened w = .ok rs) :
    ∃ met c' new rest es, (c.next known).run w = ((Mention.answer met, c'), w.after es) ∧
      openedResources es = new ∧ rs = new ++ rest ∧
      Opened known w.files c new rest met c' := by
  obtain ⟨met, c', new, rest, es, hrun, hes, hrs, hupcoming, hopened⟩ :=
    exists_run_hasNext known hu hr
  refine ⟨met, c'.handedOut, new, rest, es, ?_, hes, hrs, hopened⟩
  rw [next, Action.run_bind, hrun]
  rcases met with _ | e | candidate
  · rw [handedOut_of_upcoming_eq_none hupcoming]
    rfl
  · rw [handedOut_of_upcoming_eq_none hupcoming]
    rfl
  · obtain ⟨_, _, _, _, _, upcoming, _⟩ := c'
    obtain rfl : upcoming = some candidate := hupcoming
    rfl

/-- A request that cannot locate the resources opens nothing and changes nothing. -/
theorem exists_run_next_of_error (known : String → Bool) {cause : ScopeError}
    (hu : c.upcoming = none) (hr : c.unopened w = .error cause) :
    ∃ es, (c.next known).run w = ((.error ⟨c.capability, .scope cause⟩, c), w.after es) ∧
      openedResources es = [] := by
  cases hunread : c.unread with
  | some located =>
    rw [unopened, hunread] at hr
    cases hr
  | none =>
    obtain ⟨asked, hworld, hasks⟩ := c.scope.doesOnly_locate_asks c.capability w
    rw [unopened, hunread] at hr
    exact ⟨asked, run_next_of_unlocated known hu hunread (Prod.ext hr hworld),
      openedResources_of_asks hasks⟩

/-! ### What was read -/

/-- The candidates that are **first mentioned**: each name with the resource that mentions it
first. -/
def firstCandidates (l : List Mention) : List Candidate :=
  (firstMentions (fun _ => false) l).filterMap Except.toOption

theorem map_name_filterMap_toOption (l : List Mention) :
    (l.filterMap Except.toOption).map (·.name) = l.filterMap Mention.name? := by
  have hname : (fun m : Mention => m.toOption.map (·.name)) = Mention.name? := by
    funext m
    cases m <;> rfl
  rw [List.map_filterMap, hname]

/-- Every name that is mentioned is among them. -/
theorem mem_map_name_firstCandidates {name : String} {l : List Mention} :
    name ∈ (firstCandidates l).map (·.name) ↔ name ∈ l.filterMap Mention.name? := by
  rw [firstCandidates, map_name_filterMap_toOption]
  constructor
  · exact fun hname => ((firstMentions_sublist _ l).filterMap Mention.name?).subset hname
  · exact mem_filterMap_name?_firstMentions rfl

/-- Candidates are **read off** mentions: the candidates that are mentioned first are those that
have been handed out, in this order, and behind them those that are pending. -/
structure ReadOff (l : List Mention) (handed : List Candidate) (c : Candidates) : Prop where
  returned : c.returned = handed.map (·.name)
  candidates : firstCandidates l = handed ++
    (firstMentions (c.returned.contains ·) (c.currentMentions c.pending)).filterMap Except.toOption

/-- The names in what was read are those that have been handed out, and those that are pending. -/
theorem ReadOff.mem_iff {l : List Mention} {handed : List Candidate} (h : ReadOff l handed c)
    (name : String) : name ∈ l.filterMap Mention.name? ↔
      name ∈ c.returned ∨ name ∈ (c.currentMentions c.pending).filterMap Mention.name? := by
  have hnames : name ∈ l.filterMap Mention.name? ↔ name ∈ c.returned ∨
      name ∈ (firstMentions (c.returned.contains ·)
        (c.currentMentions c.pending)).filterMap Mention.name? := by
    rw [← mem_map_name_firstCandidates, h.candidates, List.map_append, ← h.returned,
      map_name_filterMap_toOption, List.mem_append]
  rw [hnames]
  by_cases hnew : name ∈ c.returned
  · exact iff_of_true (.inl hnew) (.inl hnew)
  · rw [or_iff_right hnew, or_iff_right hnew]
    constructor
    · exact fun hname => ((firstMentions_sublist _ _).filterMap Mention.name?).subset hname
    · exact mem_filterMap_name?_firstMentions (by simpa using hnew)

namespace Opened

variable {files : FileTree} {new rest : List Resource} {met : Option Mention}
  (hopened : Opened known files c new rest met c')
  (hknown : ∀ name, known name → name ∈ c.returned)
include hopened hknown

/-- What was read grows by the resources that are opened, and what is handed out by the candidate
that is met. -/
theorem readOff {l : List Mention} {handed : List Candidate} (h : ReadOff l handed c) :
    ReadOff (l ++ mentions c.capability files new)
      (handed ++ (met.bind Except.toOption).toList) c' where
  returned := by
    rw [hopened.returned, h.returned, List.map_append]
    rcases met with _ | _ | candidate <;> rfl
  candidates := by
    have hknown' : ∀ name, known name → name ∈ c'.returned := by
      intro name hname
      rw [hopened.returned]
      exact List.mem_append_left _ (hknown name hname)
    have hmentioned := hopened.mentioned
    rw [isSkipped_of_known hknown, isSkipped_of_known hknown', firstMentions_append] at hmentioned
    -- In what is opened now the same names are new to what was read and to what is pending.
    have hskip : (fun name => false || (l.filterMap Mention.name?).contains name) = fun name =>
        c.returned.contains name ||
          ((c.currentMentions c.pending).filterMap Mention.name?).contains name := by
      funext name
      rw [Bool.false_or, Bool.eq_iff_iff]
      simpa using h.mem_iff name
    rw [firstCandidates, firstMentions_append, List.filterMap_append, ← firstCandidates,
      h.candidates, hskip, List.append_assoc, ← List.filterMap_append, hmentioned,
      List.filterMap_append, ← List.append_assoc]
    rcases met with _ | _ | candidate <;> rfl

/-- When a resource is opened, every name that was read before has been handed out, and so has
every name of those that are opened before it in the same search. -/
theorem mem_returned {l : List Mention} {handed : List Candidate} (h : ReadOff l handed c)
    {front back : List Resource} {r : Resource} (hnew : new = front ++ r :: back) {name : String}
    (hname : name ∈ (l ++ mentions c.capability files front).filterMap Mention.name?) :
    name ∈ c.returned := by
  have hne : r :: back ≠ [] := List.cons_ne_nil r back
  have hfront : front ⊆ new.dropLast := by
    rw [hnew, List.dropLast_append_of_ne_nil hne]
    exact List.subset_append_left ..
  have hexhausted := hopened.exhausted (hnew ▸ List.append_ne_nil_of_right_ne_nil front hne)
  rw [isSkipped_of_known hknown, firstMentions_eq_nil_iff] at hexhausted
  have hreturned : ∀ m ∈ c.currentMentions c.pending ++ mentions c.capability files new.dropLast,
      m.name? = some name → name ∈ c.returned := by
    intro m hm hmname
    obtain ⟨candidate, rfl, hcandidate⟩ := hexhausted m hm
    obtain rfl : candidate.name = name := Option.some.inj hmname
    simpa using hcandidate
  rw [List.filterMap_append, List.mem_append, h.mem_iff, List.mem_filterMap,
    List.mem_filterMap] at hname
  rcases hname with (hname | ⟨m, hm, hmname⟩) | ⟨m, hm, hmname⟩
  · exact hname
  · exact hreturned m (List.mem_append_left _ hm) hmname
  · exact hreturned m (List.mem_append_right _ (mentions_subset_mentions hfront hm)) hmname

end Opened

end Candidates

end ProviderDiscovery
