import ProviderDiscovery.Proofs.Candidates.Mentions

/-!
# The order of candidates

The candidates of a capability are handed out in the order of their first mentions. What is still
to come is read off the state of the search: `Candidates.ahead` is the list of first mentions in
the pending names and in the resources that have not been opened. One request takes the head of
that list (`run_next`), so any number of requests takes as many of its members, and none is left
when the list is used up.
-/

namespace ProviderDiscovery

/-! ### Asking a scope -/

namespace Scope

mutual

/-- A scope that is asked for its resources asks and probes, and does nothing else. -/
theorem doesOnly_resources (name : String) :
    ∀ s : Scope, DoesOnly (fun e => e.asks) (s.resources name).run
  | .memory scope services parent => by
    rw [resources]
    exact .attempt_bind (doesOnly_parentResources name parent) fun _ => .pure _
  | .directory root => by
    rw [resources]
    exact .attempt_bind .attempt_get fun _ => .pure _
  | .archive path => by
    rw [resources]
    exact .attempt_bind .attempt_get fun _ => .attempt_of _
  | .classPath _ entries parent => by
    rw [resources]
    exact .attempt_bind (doesOnly_parentResources name parent) fun _ =>
      .attempt_bind (doesOnly_entryResources name entries) fun _ => .pure _
  | .custom p _ _ => by
    rw [resources, partyResources]
    refine .attempt_bind (.attempt_lift ?_) fun _ => .attempt_of _
    exact .bind .get fun _ => .bind (.record rfl) fun _ => .pure _

theorem doesOnly_parentResources (name : String) :
    ∀ parent : Option Scope, DoesOnly (fun e => e.asks) (parentResources name parent).run
  | none => by
    rw [parentResources]
    exact .pure _
  | some parent => by
    rw [parentResources]
    exact doesOnly_resources name parent

theorem doesOnly_entryResources (name : String) :
    ∀ entries : List Scope, DoesOnly (fun e => e.asks) (entryResources name entries).run
  | [] => by
    rw [entryResources]
    exact .pure _
  | entry :: rest => by
    rw [entryResources]
    exact .attempt_bind (doesOnly_resources name entry) fun _ =>
      .attempt_bind (doesOnly_entryResources name rest) fun _ => .pure _

end

/-- Locating configuration files asks and probes, and does nothing else. -/
theorem doesOnly_locate_asks (s : Scope) (c : CapabilityId) :
    DoesOnly (fun e => e.asks) (s.locate c).run := by
  unfold locate
  split
  · exact .pure _
  · exact .attempt_bind (.attempt_lift (.record rfl)) fun _ => doesOnly_resources _ s

theorem doesOnly_locate (s : Scope) (c : CapabilityId) :
    DoesOnly (fun e => e.isSearch) (s.locate c).run :=
  (s.doesOnly_locate_asks c).mono fun _ => Event.isSearch_of_asks

end Scope

namespace Candidates

/-! ### What is still to come -/

/-- The resources that are still to be opened; they are located if they have not been yet. -/
def unopened (c : Candidates) (w : World) : Except ScopeError (List Resource) :=
  match c.unread with
  | some rs => .ok rs
  | none => ((c.scope.locate c.capability).run.run w).1

/-- Names of the current resource as mentions. -/
def currentMentions (c : Candidates) (names : List String) : List Mention :=
  match c.current with
  | some resource => names.map fun name => .ok ⟨name, resource⟩
  | none => []

/-- What a search has still to hand out when some resources are still to be opened: the first
mentions in the pending names and in these resources. -/
def ahead (known : String → Bool) (c : Candidates) (files : FileTree) (rs : List Resource) :
    List Mention :=
  firstMentions (c.isSkipped known) (c.currentMentions c.pending ++ mentions c.capability files rs)

/-- At the start everything is still to come. -/
theorem ahead_start (known : String → Bool) (capability : CapabilityId) (scope : Scope)
    (files : FileTree) (rs : List Resource) :
    (start capability scope).ahead known files rs =
      firstMentions known (mentions capability files rs) := by
  have hskip : (start capability scope).isSkipped known = known := by
    funext name
    simp [isSkipped, start]
  rw [ahead, hskip]
  rfl

/-- A name that is handed out is skipped from then on. -/
theorem isSkipped_handedOut (known : String → Bool) (c : Candidates) (upcoming : Option Candidate)
    (name : String) :
    isSkipped { c with upcoming := upcoming, returned := c.returned ++ [name] } known =
      fun n => c.isSkipped known n || n == name := by
  funext n
  simp [isSkipped, Bool.or_assoc, Bool.beq_eq_decide_eq]

/-- Names that are known because they were handed out are skipped anyway. -/
theorem isSkipped_of_known {known : String → Bool} {c : Candidates}
    (h : ∀ name, known name → name ∈ c.returned) :
    c.isSkipped known = fun name => c.returned.contains name := by
  funext name
  rw [isSkipped]
  cases hknown : known name with
  | false => rfl
  | true => simpa using h name hknown

/-! ### One request -/

/-- Looking through pending names either finds the first one that is not skipped, or uses them
all up. -/
theorem searchPending_cases (known : String → Bool) (c : Candidates) (names : List String)
    (l : List Mention) :
    (c.searchPending known names = (false, { c with pending := [] }) ∧
      firstMentions (c.isSkipped known) (c.currentMentions names ++ l) =
        firstMentions (c.isSkipped known) l) ∨
    ∃ name rest resource,
      c.searchPending known names =
        (true, { c with pending := rest, upcoming := some ⟨name, resource⟩ }) ∧
      firstMentions (c.isSkipped known) (c.currentMentions names ++ l) =
        .ok ⟨name, resource⟩ ::
          firstMentions (fun n => c.isSkipped known n || n == name)
            (c.currentMentions rest ++ l) := by
  induction names with
  | nil =>
    left
    refine ⟨rfl, ?_⟩
    unfold currentMentions
    split <;> rfl
  | cons name rest ih =>
    rw [searchPending]
    by_cases hskip : c.isSkipped known name
    · rw [if_pos hskip]
      have hdrop : firstMentions (c.isSkipped known) (c.currentMentions (name :: rest) ++ l) =
          firstMentions (c.isSkipped known) (c.currentMentions rest ++ l) := by
        unfold currentMentions
        split
        · rw [List.map_cons, List.cons_append, firstMentions, if_pos hskip]
        · rfl
      rw [hdrop]
      exact ih
    · rw [if_neg hskip]
      cases hcurrent : c.current with
      | none =>
        have hnone : ∀ names, c.currentMentions names = [] := fun names => by
          rw [currentMentions, hcurrent]
        simp only [hnone, hcurrent] at ih ⊢
        exact ih
      | some resource =>
        right
        refine ⟨name, rest, resource, rfl, ?_⟩
        simp only [currentMentions, hcurrent, List.map_cons, List.cons_append]
        rw [firstMentions, if_neg hskip]

/-- The state when what has been found is handed out. -/
def handedOut (c : Candidates) : Candidates :=
  match c.upcoming with
  | none => c
  | some candidate =>
    { c with upcoming := none, returned := c.returned ++ [candidate.name] }

theorem handedOut_of_upcoming_eq_none {c : Candidates} (h : c.upcoming = none) :
    c.handedOut = c := by
  rw [handedOut, h]

/-- Without pending names only the resources are still to come. -/
theorem ahead_of_no_pending {known : String → Bool} {c : Candidates} (hu : c.upcoming = none)
    (files : FileTree) (rs : List Resource) :
    (handedOut { c with pending := [], unread := some rs }).ahead known files rs =
      firstMentions (c.isSkipped known) (mentions c.capability files rs) := by
  rw [handedOut_of_upcoming_eq_none (by exact hu), ahead, currentMentions]
  split <;> rfl

/-- The state after a search that took the head of a list of mentions: the candidate is found if
the head is one, and the rest of the list is still to come. -/
structure Searched (known : String → Bool) (files : FileTree) (l : List Mention)
    (c c' : Candidates) : Prop where
  capability : c'.capability = c.capability
  scope : c'.scope = c.scope
  returned : c'.returned = c.returned
  upcoming : c'.upcoming = l.head?.bind Except.toOption
  ahead : ∃ rs, c'.unread = some rs ∧ c'.handedOut.ahead known files rs = l.tail

/-- A step **takes the head** of a list of mentions: it answers whether there is a candidate, and
does nothing but search. -/
def TakesHead (known : String → Bool) (c : Candidates) (w : World) (l : List Mention)
    (x : Action (Except DiscoveryError Bool × Candidates)) : Prop :=
  ∃ c' es, x.run w = (((Mention.answer l.head?).map Option.isSome, c'), w.after es) ∧
    (∀ e ∈ es, e.isSearch) ∧ Searched known w.files l c c'

/-- Without a pending name that is not skipped the first resource is opened, if there is one. -/
theorem run_search_of_not_found {known : String → Bool} (rs : List Resource) {c c' : Candidates}
    (h : c.searchPending known c.pending = (false, c')) (w : World) :
    (search known rs c).run w =
      match rs with
      | [] => ((.ok false, { c' with unread := some [] }), w)
      | r :: rest =>
        match r.namesIn c'.capability w.files with
        | .error e => ((.error e, { c' with unread := some rest }), w.after [.opened r])
        | .ok names =>
          (search known rest { c' with current := some r.id, pending := names }).run
            (w.after [.opened r]) := by
  rw [search, h]
  cases rs with
  | nil => rfl
  | cons r rest =>
    simp only [Bool.false_eq_true, if_false, Action.run_bind, run_listedNames]
    cases r.namesIn c'.capability w.files with
    | error e => rfl
    | ok names => rfl

/-- With such a name no resource is opened, and the name is the head. -/
theorem takesHead_search_of_found {known : String → Bool} {c : Candidates} {name : String}
    {rest : List String} {resource : ResourceId} (rs : List Resource) (w : World)
    (hp : c.searchPending known c.pending =
      (true, { c with pending := rest, upcoming := some ⟨name, resource⟩ }))
    (hl : c.ahead known w.files rs =
      .ok ⟨name, resource⟩ :: firstMentions (fun n => c.isSkipped known n || n == name)
        (c.currentMentions rest ++ mentions c.capability w.files rs)) :
    TakesHead known c w (c.ahead known w.files rs) (search known rs c) := by
  refine ⟨{ c with pending := rest, upcoming := some ⟨name, resource⟩, unread := some rs }, [],
    ?_, by simp, ⟨rfl, rfl, rfl, by rw [hl]; rfl, rs, rfl, ?_⟩⟩
  · rw [search, hp, hl]
    rfl
  · rw [hl, List.tail_cons, ahead, ← isSkipped_handedOut known c none name]
    rfl

/-- A search takes the head of what is still to come. -/
theorem takesHead_search (known : String → Bool) (rs : List Resource) (c : Candidates) (w : World)
    (hu : c.upcoming = none) :
    TakesHead known c w (c.ahead known w.files rs) (search known rs c) := by
  -- The induction follows the resources: each resource without a fresh name moves the search on.
  induction rs generalizing c w with
  | nil =>
    rcases searchPending_cases known c c.pending (mentions c.capability w.files []) with
      ⟨hp, hl⟩ | ⟨name, rest, resource, hp, hl⟩
    · have hahead : c.ahead known w.files [] = [] := hl
      refine ⟨{ c with pending := [], unread := some [] }, [], ?_, by simp, ?_⟩
      · rw [run_search_of_not_found [] hp, hahead]
        rfl
      · rw [hahead]
        exact ⟨rfl, rfl, rfl, hu, [], rfl, ahead_of_no_pending hu w.files []⟩
    · exact takesHead_search_of_found [] w hp hl
  | cons r rest ih =>
    rcases searchPending_cases known c c.pending (mentions c.capability w.files (r :: rest)) with
      ⟨hp, hl⟩ | ⟨name, names, resource, hp, hl⟩
    · have hrun := run_search_of_not_found (r :: rest) hp w
      cases hnames : r.namesIn c.capability w.files with
      | error e =>
        have hahead : c.ahead known w.files (r :: rest) =
            .error e :: firstMentions (c.isSkipped known) (mentions c.capability w.files rest) := by
          rw [ahead, hl, mentions_cons_of_error hnames, firstMentions]
        refine ⟨{ c with pending := [], unread := some rest }, [.opened r], ?_,
          by simp [Event.isSearch], ?_⟩
        · rw [hrun, hahead]
          simp only [hnames]
          rfl
        · rw [hahead]
          exact ⟨rfl, rfl, rfl, hu, rest, rfl, ahead_of_no_pending hu w.files rest⟩
      | ok names =>
        simp only [hnames] at hrun
        have hahead : c.ahead known w.files (r :: rest) =
            ahead known { c with current := some r.id, pending := names } w.files rest := by
          rw [ahead, hl, mentions_cons_of_ok hnames]
          rfl
        obtain ⟨c', es, hc', hes, hs⟩ :=
          ih { c with current := some r.id, pending := names } (w.after [.opened r]) hu
        refine ⟨c', .opened r :: es, ?_, ?_, ?_⟩
        · rw [hrun, hc', hahead, World.after_after]
          rfl
        · simpa [Event.isSearch] using hes
        · rw [hahead]
          exact ⟨hs.capability, hs.scope, hs.returned, hs.upcoming, hs.ahead⟩
    · exact takesHead_search_of_found (r :: rest) w hp hl

/-- Once the resources have been located the search goes through them. -/
theorem run_hasNext_of_located (known : String → Bool) {c : Candidates} {w w' : World}
    {rs : List Resource} (hu : c.upcoming = none) (hunread : c.unread = none)
    (hlocate : (c.scope.locate c.capability).run.run w = (.ok rs, w')) :
    (c.hasNext known).run w = (search known rs c).run w' := by
  simp only [hasNext, hu, hunread, Option.isSome_none, Bool.false_eq_true, if_false,
    Action.run_bind, hlocate]

/-- Resources that cannot be located leave everything as it is. -/
theorem run_hasNext_of_unlocated (known : String → Bool) {c : Candidates} {w w' : World}
    {cause : ScopeError} (hu : c.upcoming = none) (hunread : c.unread = none)
    (hlocate : (c.scope.locate c.capability).run.run w = (.error cause, w')) :
    (c.hasNext known).run w = ((.error ⟨c.capability, .scope cause⟩, c), w') := by
  simp only [hasNext, hu, hunread, Option.isSome_none, Bool.false_eq_true, if_false,
    Action.run_bind, hlocate]
  rfl

/-- Resources that are still to be located are looked for in the scope. -/
theorem locate_of_unopened {c : Candidates} {w : World} {answer : Except ScopeError (List Resource)}
    (hunread : c.unread = none) (hr : c.unopened w = answer) :
    ∃ es, (c.scope.locate c.capability).run.run w = (answer, w.after es) ∧
      ∀ e ∈ es, e.isSearch := by
  obtain ⟨es, hw, hes⟩ := c.scope.doesOnly_locate c.capability w
  rw [unopened, hunread] at hr
  exact ⟨es, Prod.ext hr hw, hes⟩

/-- Asking for another candidate takes the head of what is still to come, once the resources have
been located. -/
theorem takesHead_hasNext (known : String → Bool) {c : Candidates} {w : World}
    {rs : List Resource} (hu : c.upcoming = none) (hr : c.unopened w = .ok rs) :
    TakesHead known c w (c.ahead known w.files rs) (c.hasNext known) := by
  cases hunread : c.unread with
  | some located =>
    rw [unopened, hunread] at hr
    cases hr
    have hrun : c.hasNext known = search known rs c := by
      simp [hasNext, hu, hunread]
    rw [hrun]
    exact takesHead_search known rs c w hu
  | none =>
    obtain ⟨es, hlocate, hes⟩ := locate_of_unopened hunread hr
    obtain ⟨c', fs, hc', hfs, hs⟩ := takesHead_search known rs c (w.after es) hu
    rw [World.files_after] at hc'
    refine ⟨c', es ++ fs, ?_, List.forall_mem_append.mpr ⟨hes, hfs⟩, hs⟩
    rw [run_hasNext_of_located known hu hunread hlocate, hc', World.after_after]

/-- The state after a request that took the head of a list of mentions. -/
structure Requested (known : String → Bool) (files : FileTree) (l : List Mention)
    (c c' : Candidates) : Prop where
  capability : c'.capability = c.capability
  scope : c'.scope = c.scope
  returned : c'.returned = c.returned ++ (l.head?.bind Mention.name?).toList
  upcoming : c'.upcoming = none
  ahead : ∃ rs, c'.unread = some rs ∧ c'.ahead known files rs = l.tail

/-- A **request** for a candidate takes the head of what is still to come. -/
theorem run_next (known : String → Bool) {c : Candidates} {w : World} {rs : List Resource}
    (hu : c.upcoming = none) (hr : c.unopened w = .ok rs) :
    ∃ c' es, (c.next known).run w =
        ((Mention.answer (c.ahead known w.files rs).head?, c'), w.after es) ∧
      (∀ e ∈ es, e.isSearch) ∧ Requested known w.files (c.ahead known w.files rs) c c' := by
  obtain ⟨c', es, hrun, hes, hs⟩ := takesHead_hasNext known hu hr
  obtain ⟨rs', hunread, hahead⟩ := hs.ahead
  have hup := hs.upcoming
  rw [next, Action.run_bind, hrun]
  cases hl : (c.ahead known w.files rs).head? with
  | none =>
    rw [hl] at hup
    rw [handedOut_of_upcoming_eq_none hup] at hahead
    exact ⟨c', es, rfl, hes, hs.capability, hs.scope, by simpa [hl] using hs.returned, hup,
      rs', hunread, hahead⟩
  | some m =>
    cases m with
    | error e =>
      rw [hl] at hup
      rw [handedOut_of_upcoming_eq_none hup] at hahead
      exact ⟨c', es, rfl, hes, hs.capability, hs.scope, by simpa [hl] using hs.returned, hup,
        rs', hunread, hahead⟩
    | ok candidate =>
      rw [hl] at hup
      obtain ⟨_, _, _, _, _, upcoming, _⟩ := c'
      obtain rfl : upcoming = some candidate := hup
      exact ⟨_, es, rfl, hes, hs.capability, hs.scope, by simpa [hl] using hs.returned, rfl,
        rs', hunread, hahead⟩

/-- A request fails with the scope if the resources cannot be located, and changes nothing. -/
theorem run_next_of_unlocated (known : String → Bool) {c : Candidates} {w w' : World}
    {cause : ScopeError} (hu : c.upcoming = none) (hunread : c.unread = none)
    (hlocate : (c.scope.locate c.capability).run.run w = (.error cause, w')) :
    (c.next known).run w = ((.error ⟨c.capability, .scope cause⟩, c), w') := by
  rw [next, Action.run_bind, run_hasNext_of_unlocated known hu hunread hlocate]
  rfl

theorem run_next_of_error (known : String → Bool) {c : Candidates} {w : World}
    {cause : ScopeError} (hu : c.upcoming = none) (hr : c.unopened w = .error cause) :
    ∃ es, (c.next known).run w = ((.error ⟨c.capability, .scope cause⟩, c), w.after es) ∧
      ∀ e ∈ es, e.isSearch := by
  cases hunread : c.unread with
  | some located =>
    rw [unopened, hunread] at hr
    cases hr
  | none =>
    obtain ⟨es, hlocate, hes⟩ := locate_of_unopened hunread hr
    exact ⟨es, run_next_of_unlocated known hu hunread hlocate, hes⟩

/-- The name of the candidate that an answer hands out. -/
def handedName : Except DiscoveryError (Option Candidate) → Option String
  | .ok (some candidate) => some candidate.name
  | _ => none

theorem handedName_answer (m : Option Mention) :
    handedName (Mention.answer m) = m.bind Mention.name? := by
  rcases m with _ | _ | candidate <;> rfl

/-- Whatever the scope and the resources do, a request hands out at most one name, which was not
to be skipped, and remembers it. -/
theorem run_next_frame (known : String → Bool) {c : Candidates} (w : World)
    (hu : c.upcoming = none) :
    ∃ answer c' es, (c.next known).run w = ((answer, c'), w.after es) ∧
      (∀ e ∈ es, e.isSearch) ∧ c'.capability = c.capability ∧ c'.scope = c.scope ∧
      c'.upcoming = none ∧ c'.returned = c.returned ++ (handedName answer).toList ∧
      ∀ name ∈ handedName answer, c.isSkipped known name = false := by
  cases hr : c.unopened w with
  | error cause =>
    obtain ⟨es, hrun, hes⟩ := run_next_of_error known hu hr
    exact ⟨_, c, es, hrun, hes, rfl, rfl, hu, by simp [handedName], by simp [handedName]⟩
  | ok rs =>
    obtain ⟨c', es, hrun, hes, hc'⟩ := run_next known hu hr
    refine ⟨_, c', es, hrun, hes, hc'.capability, hc'.scope, hc'.upcoming, ?_, ?_⟩
    · rw [handedName_answer, hc'.returned]
    · intro name hname
      rw [handedName_answer] at hname
      obtain ⟨m, hm, hmname⟩ := Option.bind_eq_some_iff.mp hname
      cases m with
      | error e => cases hmname
      | ok candidate =>
        obtain rfl := Option.some.inj hmname
        exact skip_eq_false_of_mem_firstMentions (List.mem_of_head? hm)

/-- The state after a request that has handed a candidate out. -/
structure Gave (known : String → Bool) (candidate : Candidate) (c c' : Candidates) : Prop where
  unknown : known candidate.name = false
  returned : c'.returned = c.returned ++ [candidate.name]
  upcoming : c'.upcoming = none
  capability : c'.capability = c.capability
  located : ∃ rs, c'.unread = some rs

/-- A request that hands a candidate out has located the resources, and does nothing but search. -/
theorem gave_of_run_next {known : String → Bool} {c c' : Candidates} {w w' : World}
    {candidate : Candidate} (hu : c.upcoming = none)
    (h : (c.next known).run w = ((.ok (some candidate), c'), w')) :
    Gave known candidate c c' ∧ ∃ es, w' = w.after es ∧ ∀ e ∈ es, e.isSearch := by
  obtain ⟨answer, c₁, es, hrun, hes, hcapability, -, hupcoming, hreturned, hskipped⟩ :=
    run_next_frame known w hu
  rw [h] at hrun
  obtain ⟨hpair, rfl⟩ := Prod.mk.inj hrun
  obtain ⟨rfl, rfl⟩ := Prod.mk.inj hpair
  have hskip := hskipped candidate.name rfl
  refine ⟨⟨(Bool.or_eq_false_iff.mp hskip).1, hreturned, hupcoming, hcapability, ?_⟩, es, rfl, hes⟩
  cases hr : c.unopened w with
  | error cause =>
    obtain ⟨fs, hfailed, -⟩ := run_next_of_error known hu hr
    rw [h] at hfailed
    cases hfailed
  | ok rs =>
    obtain ⟨c₁, fs, hnext, -, hc⟩ := run_next known hu hr
    obtain ⟨rs', hunread, -⟩ := hc.ahead
    have hsame : c' = c₁ := congrArg (·.1.2) (h.symm.trans hnext)
    exact ⟨rs', hsame ▸ hunread⟩

/-! ### Any number of requests -/

/-- A number of requests for candidates, one after the other. -/
def takeNext (known : String → Bool) : Nat → Candidates →
    Action (List (Except DiscoveryError (Option Candidate)) × Candidates)
  | 0, c => return ([], c)
  | n + 1, c => do
    let (answer, c) ← c.next known
    let (answers, c) ← takeNext known n c
    return (answer :: answers, c)

/-- Requests take as many members of what is still to come as there are requests. -/
theorem takeNext_answers (known : String → Bool) (n : Nat) {c : Candidates} {w : World}
    {rs : List Resource} (hu : c.upcoming = none) (hr : c.unopened w = .ok rs) :
    ((takeNext known n c).run w).1.1 =
      (List.range n).map fun k => Mention.answer (c.ahead known w.files rs)[k]? := by
  induction n generalizing c w rs with
  | zero => rfl
  | succ n ih =>
    obtain ⟨c', es, hrun, -, hc'⟩ := run_next known hu hr
    obtain ⟨rs', hunread, hahead⟩ := hc'.ahead
    have hr' : c'.unopened (w.after es) = .ok rs' := by rw [unopened, hunread]
    have htail := ih hc'.upcoming hr'
    rw [World.files_after, hahead] at htail
    rw [List.range_succ_eq_map, List.map_cons, List.map_map, takeNext, Action.run_bind, hrun]
    change Mention.answer _ :: ((takeNext known n c').run (w.after es)).1.1 = _
    rw [htail, List.head?_eq_getElem?]
    simp [Function.comp_def]

end Candidates

/-- **The candidates are the first mentions.** Requests for candidates with one set of known names
are answered by the first mentions of unknown names in the located resources, in order, and then by
none. Failures of resources are among them in their places, each once; no name is handed out twice;
a known name is never handed out; and every other name that a well-formed resource lists is handed
out where it is mentioned first. -/
theorem takeNext_start_eq_firstMentions (known : String → Bool) {capability : CapabilityId}
    {scope : Scope} {w w' : World} {rs : List Resource}
    (h : (scope.locate capability).run.run w = (.ok rs, w')) :
    let all := mentions capability w.files rs
    let first := firstMentions known all
    (∀ n, ((Candidates.takeNext known n (.start capability scope)).run w).1.1 =
        (List.range n).map fun k => Mention.answer first[k]?) ∧
      first.Sublist all ∧
      first.filterMap Mention.failure? = all.filterMap Mention.failure? ∧
      (first.filterMap Mention.name?).Nodup ∧
      (∀ name ∈ first.filterMap Mention.name?, known name = false) ∧
      ∀ r ∈ rs, ∀ names, r.namesIn capability w.files = .ok names →
        ∀ name ∈ names, known name = false →
          name ∈ first.filterMap Mention.name? ∧
          first.find? (fun m => m.name? = some name) =
            all.find? (fun m => m.name? = some name) := by
  intro all first
  refine ⟨fun n => ?_, firstMentions_sublist known all,
    filterMap_failure?_firstMentions known all, nodup_filterMap_name?_firstMentions known all,
    fun name hname => ?_, fun r hr names hnames name hname hknown => ⟨?_, ?_⟩⟩
  · have hr : (Candidates.start capability scope).unopened w = .ok rs := congrArg Prod.fst h
    rw [Candidates.takeNext_answers known n rfl hr, Candidates.ahead_start]
  · obtain ⟨m, hm, hmname⟩ := List.mem_filterMap.mp hname
    cases m with
    | error e => cases hmname
    | ok candidate =>
      obtain rfl := Option.some.inj hmname
      exact skip_eq_false_of_mem_firstMentions hm
  · exact mem_filterMap_name?_firstMentions hknown (mem_filterMap_name?_mentions hr hnames hname)
  · exact find?_firstMentions hknown all

/-- Three resources: one with `A`, one with `B` and a malformed second line, one with `C` and
`A`. -/
def threeResources : List Resource :=
  [.ofBytes ⟨"1"⟩ [0x41], .ofBytes ⟨"2"⟩ [0x42, 0x0a, 0x43, 0x20, 0x44],
    .ofBytes ⟨"3"⟩ [0x43, 0x0a, 0x41]]

/-- The malformed resource is one failure, which hides `B`, and `A` is not handed out again. -/
theorem takeNext_threeResources :
    let scope : Scope := .party ⟨⟨0⟩, "three", fun _ _ => .ok threeResources⟩
    let w : World := .fresh ∅ ∅
    (scope.locate ⟨"x.Codec"⟩).run.run w =
        (.ok threeResources,
          w.after [.asked "three" "META-INF/services/x.Codec", .probed ⟨0⟩]) ∧
      ((Candidates.takeNext (fun _ => false) 5 (.start ⟨"x.Codec"⟩ scope)).run w).1.1 =
        [.ok (some ⟨"A", ⟨"1"⟩⟩), .error ⟨⟨"x.Codec"⟩, .malformed ⟨"2"⟩ 2 .illegalSyntax⟩,
          .ok (some ⟨"C", ⟨"3"⟩⟩), .ok none, .ok none] := by
  intro scope w
  have h : (scope.locate ⟨"x.Codec"⟩).run.run w = (.ok threeResources,
      w.after [.asked "three" "META-INF/services/x.Codec", .probed ⟨0⟩]) := rfl
  have hfirst : firstMentions (fun _ => false) (mentions ⟨"x.Codec"⟩ w.files threeResources) =
      [.ok ⟨"A", ⟨"1"⟩⟩, .error ⟨⟨"x.Codec"⟩, .malformed ⟨"2"⟩ 2 .illegalSyntax⟩,
        .ok ⟨"C", ⟨"3"⟩⟩] := rfl
  have hanswers := (takeNext_start_eq_firstMentions (fun _ => false) h).1 5
  rw [hfirst] at hanswers
  exact ⟨h, hanswers⟩

end ProviderDiscovery
