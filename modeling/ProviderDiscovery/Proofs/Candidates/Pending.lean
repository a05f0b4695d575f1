import Mathlib.Data.List.Induction
import ProviderDiscovery.Proofs.Candidates.Peeking

/-!
# Pending names

A search that meets a name to hand out needs the resource that lists it. Should there be none, the
search goes on without the name, and nobody is told. This never happens: as long as names are
pending, the candidates know the resource that they were read in, and what is pending is the last
part of its names (`Candidates.Tracked`). Each question keeps that (`Enquiry.tracked_step`), and so
does a run of questions (`Enquiry.tracked_after`). So a search that did anything else with a name
whose resource is not known (`Candidates.hasNextElse`) would be the same search. What was read
sometime is handed out, waits or is pending, but for what was known to whoever asked
(`Enquiry.pending_names_kept`).
-/

namespace ProviderDiscovery

namespace Candidates

variable {known : String → Bool} {c c' : Candidates}

/-! ### Looking through pending names -/

/-- Looking through names either finds the first that is not skipped, and leaves those behind it, or
skips them all. Only if the resource of the names is not known can others be passed over. -/
theorem searchPending_splits (known : String → Bool) (c : Candidates) (names : List String)
    (hcurrent : names ≠ [] → ∃ resource, c.current = some resource) :
    (c.searchPending known names = (false, { c with pending := [] }) ∧
      ∀ name ∈ names, c.isSkipped known name) ∨
    ∃ front name rest resource, names = front ++ name :: rest ∧
      (∀ other ∈ front, c.isSkipped known other) ∧ c.isSkipped known name = false ∧
      c.searchPending known names =
        (true, { c with pending := rest, upcoming := some ⟨name, resource⟩ }) := by
  induction names with
  | nil => exact .inl ⟨rfl, nofun⟩
  | cons name rest ih =>
    obtain ⟨resource, hresource⟩ := hcurrent (List.cons_ne_nil name rest)
    rw [searchPending]
    cases hskip : c.isSkipped known name with
    | false =>
      rw [if_neg Bool.false_ne_true, hresource]
      exact .inr ⟨[], name, rest, resource, rfl, nofun, hskip, rfl⟩
    | true =>
      rw [if_pos rfl]
      rcases ih fun _ => ⟨resource, hresource⟩ with
        ⟨hsearch, hall⟩ | ⟨front, found, behind, id, hnames, hfront, hfound, hsearch⟩
      · exact .inl ⟨hsearch, List.forall_mem_cons.mpr ⟨hskip, hall⟩⟩
      · refine .inr ⟨name :: front, found, behind, id, by rw [hnames]; rfl,
          List.forall_mem_cons.mpr ⟨hskip, hfront⟩, hfound, hsearch⟩

/-! ### What is known of pending names -/

/-- Candidates are **tracked** by the lists of resources that have been located, and by the
resources that have been read, with the names that they listed then. Before resources have been
located there is nothing; later those that are still to be opened are the last part of a located
list, and pending names are the last part of the names in the resource before them, which is the
current one. A candidate that waits has not been handed out. -/
structure Tracked (L : List Resource → Prop) (R : Resource → List String → Prop)
    (c : Candidates) : Prop where
  unlocated : c.unread = none → c.pending = [] ∧ c.upcoming = none ∧ c.returned = []
  located : ∀ rs, c.unread = some rs → ∃ front, L (front ++ rs)
  pending : c.pending ≠ [] → ∃ front r rs names, L (front ++ r :: rs) ∧ c.unread = some rs ∧
    c.current = some r.id ∧ R r names ∧ c.pending <:+ names
  waiting : ∀ candidate, c.upcoming = some candidate → candidate.name ∉ c.returned

variable {L L' : List Resource → Prop} {R R' : Resource → List String → Prop}

theorem tracked_start (L : List Resource → Prop) (R : Resource → List String → Prop)
    (capability : CapabilityId) (scope : Scope) : (start capability scope).Tracked L R :=
  ⟨fun _ => ⟨rfl, rfl, rfl⟩, nofun, fun h => absurd rfl h, nofun⟩

/-- What has to be known once resources have been located. -/
theorem tracked_of_unread {rs : List Resource} (hunread : c.unread = some rs)
    (hlocated : ∃ front, L (front ++ rs))
    (hpending : c.pending ≠ [] → ∃ front r names, L (front ++ r :: rs) ∧ c.current = some r.id ∧
      R r names ∧ c.pending <:+ names)
    (hwaiting : ∀ candidate, c.upcoming = some candidate → candidate.name ∉ c.returned) :
    c.Tracked L R where
  unlocated hnone := absurd (hunread.symm.trans hnone) (Option.some_ne_none rs)
  located others hothers := by
    obtain rfl := Option.some.inj (hunread.symm.trans hothers)
    exact hlocated
  pending hne := by
    obtain ⟨front, r, names, hbefore, hcurrent, hread, hsuffix⟩ := hpending hne
    exact ⟨front, r, rs, names, hbefore, hunread, hcurrent, hread, hsuffix⟩
  waiting := hwaiting

namespace Tracked

theorem mono (h : c.Tracked L R) (hL : ∀ rs, L rs → L' rs)
    (hR : ∀ r names, R r names → R' r names) : c.Tracked L' R' where
  unlocated := h.unlocated
  located rs hrs := by
    obtain ⟨front, hfront⟩ := h.located rs hrs
    exact ⟨front, hL _ hfront⟩
  pending hpending := by
    obtain ⟨front, r, rs, names, hlocated, hunread, hcurrent, hread, hsuffix⟩ := h.pending hpending
    exact ⟨front, r, rs, names, hL _ hlocated, hunread, hcurrent, hR _ _ hread, hsuffix⟩
  waiting := h.waiting

/-- The resource of pending names is known. -/
theorem exists_current (h : c.Tracked L R) (hpending : c.pending ≠ []) :
    ∃ resource, c.current = some resource := by
  obtain ⟨front, r, rs, names, -, -, hcurrent, -⟩ := h.pending hpending
  exact ⟨r.id, hcurrent⟩

/-- Handing the candidate out that waits keeps track. -/
theorem handedOut (h : c.Tracked L R) : c.handedOut.Tracked L R := by
  rw [Candidates.handedOut]
  cases hupcoming : c.upcoming with
  | none => exact h
  | some candidate =>
    refine ⟨fun hunread => ?_, h.located, h.pending, fun _ hfound => by cases hfound⟩
    obtain ⟨-, hnone, -⟩ := h.unlocated hunread
    rw [hupcoming] at hnone
    cases hnone

end Tracked

/-! ### A search through resources -/

/-- Candidates **keep** a name that has been handed out, that waits, or that is pending. -/
def Keeps (c : Candidates) (name : String) : Prop :=
  name ∈ c.returned ∨ (∃ candidate, c.upcoming = some candidate ∧ candidate.name = name) ∨
    name ∈ c.pending

/-- What is handed out has been kept, and still is. -/
theorem Keeps.handedOut {name : String} (h : c.Keeps name) : c.handedOut.Keeps name := by
  rw [Candidates.handedOut]
  cases hupcoming : c.upcoming with
  | none => exact h
  | some candidate =>
    rcases h with hreturned | ⟨found, hfound, rfl⟩ | hpending
    · exact .inl (List.mem_append_left _ hreturned)
    · obtain rfl := Option.some.inj (hupcoming.symm.trans hfound)
      exact .inl (List.mem_append_right _ (List.mem_singleton_self _))
    · exact .inr (.inr hpending)

/-- A name is skipped because it is known, or because it has been handed out. -/
theorem keeps_of_isSkipped {name : String} (h : c.isSkipped known name)
    (hreturned : c'.returned = c.returned) : known name ∨ c'.Keeps name := by
  rcases Bool.or_eq_true_iff.mp h with hknown | hold
  · exact .inl hknown
  · refine .inr (.inl ?_)
    rw [hreturned]
    exact List.contains_iff_mem.mp hold

/-- How candidates stand **behind a search** that has opened some resources and left the rest: they
are tracked by what has been read in addition, and keep all names that were pending or have been
read, but for known ones. -/
structure Behind (L : List Resource → Prop) (R : Resource → List String → Prop)
    (known : String → Bool) (files : FileTree) (c : Candidates) (new rest : List Resource)
    (c' : Candidates) : Prop where
  unread : c'.unread = some rest
  returned : c'.returned = c.returned
  tracked : c'.Tracked L fun r names =>
    R r names ∨ r ∈ new ∧ r.namesIn c.capability files = .ok names
  kept : ∀ name, (name ∈ c.pending ∨
      ∃ r ∈ new, ∃ names, r.namesIn c.capability files = .ok names ∧ name ∈ names) →
    known name ∨ c'.Keeps name

/-- A name that is found among the pending ones waits, and those behind it are pending. -/
theorem behind_of_found {rs : List Resource} (h : Tracked L R { c with unread := some rs })
    (files : FileTree) {front rest : List String} {name : String} (resource : ResourceId)
    (hpending : c.pending = front ++ name :: rest)
    (hfront : ∀ other ∈ front, c.isSkipped known other) (hname : c.isSkipped known name = false) :
    Behind L R known files c [] rs
      { c with pending := rest, upcoming := some ⟨name, resource⟩, unread := some rs } where
  unread := rfl
  returned := rfl
  tracked := by
    refine tracked_of_unread rfl (h.located rs rfl) (fun _ => ?_) fun candidate hcandidate => ?_
    · have hne : c.pending ≠ [] := by rw [hpending]; simp
      obtain ⟨before, r, others, names, hlocated, hunread, hcurrent, hread, hsuffix⟩ :=
        h.pending hne
      obtain rfl := Option.some.inj hunread
      refine ⟨before, r, names, hlocated, hcurrent, .inl hread, ?_⟩
      refine List.IsSuffix.trans ?_ hsuffix
      exact ⟨front ++ [name], by rw [hpending, List.append_assoc]; rfl⟩
    · obtain rfl := Option.some.inj hcandidate
      simpa using (Bool.or_eq_false_iff.mp hname).2
  kept other hother := by
    rcases hother with hother | ⟨r, hr, -⟩
    · rw [hpending, List.mem_append, List.mem_cons] at hother
      rcases hother with hother | rfl | hother
      · exact keeps_of_isSkipped (hfront other hother) rfl
      · exact .inr (.inr (.inl ⟨_, rfl, rfl⟩))
      · exact .inr (.inr (.inr hother))
    · cases hr

/-- A **search** through resources keeps track, and loses no name. -/
theorem Tracked.search (known : String → Bool) (rs : List Resource) {w : World}
    (h : Tracked L R { c with unread := some rs }) (hu : c.upcoming = none) :
    ∃ answer c' new rest,
      (search known rs c).run w = ((answer, c'), w.after (new.map .opened)) ∧
      rs = new ++ rest ∧ Behind L R known w.files c new rest c' := by
  -- The induction follows the resources: each resource without a fresh name moves the search on.
  induction rs generalizing c w R with
  | nil =>
    rcases c.searchPending_splits known c.pending h.exists_current with
      ⟨hp, hall⟩ | ⟨front, name, rest, resource, hpending, hfront, hname, hp⟩
    · refine ⟨.ok false, _, [], [], run_search_of_not_found [] hp w, rfl, rfl, rfl,
        tracked_of_unread rfl (h.located [] rfl) (fun hne => absurd rfl hne) h.waiting,
        fun name hname => ?_⟩
      rcases hname with hname | ⟨r, hr, -⟩
      · exact keeps_of_isSkipped (hall name hname) rfl
      · cases hr
    · refine ⟨.ok true, _, [], [], ?_, rfl,
        behind_of_found h w.files resource hpending hfront hname⟩
      rw [Candidates.search, hp]
      rfl
  | cons r others ih =>
    rcases c.searchPending_splits known c.pending h.exists_current with
      ⟨hp, hall⟩ | ⟨front, name, rest, resource, hpending, hfront, hname, hp⟩
    · have hrun := run_search_of_not_found (r :: others) hp w
      obtain ⟨before, hlocated⟩ := h.located (r :: others) rfl
      have hbefore : L ((before ++ [r]) ++ others) := by rwa [List.append_assoc]
      cases hnames : r.namesIn c.capability w.files with
      | error e =>
        simp only [hnames] at hrun
        refine ⟨.error e, _, [r], others, hrun, rfl, rfl, rfl,
          tracked_of_unread rfl ⟨before ++ [r], hbefore⟩ (fun hne => absurd rfl hne) h.waiting,
          fun name hname => ?_⟩
        rcases hname with hname | ⟨r', hr', names, hlists, -⟩
        · exact keeps_of_isSkipped (hall name hname) rfl
        · rw [List.mem_singleton.mp hr', hnames] at hlists
          cases hlists
      | ok names =>
        simp only [hnames] at hrun
        have hopened : Tracked L (fun r' ns => R r' ns ∨ r' = r ∧ ns = names)
            { c with current := some r.id, pending := names, unread := some others } := by
          refine tracked_of_unread rfl ⟨before ++ [r], hbefore⟩ (fun _ => ?_) h.waiting
          exact ⟨before, r, names, hlocated, rfl, .inr ⟨rfl, rfl⟩, List.suffix_rfl⟩
        obtain ⟨answer, c', new, rest, hsearch, rfl, hbehind⟩ :=
          ih (c := { c with current := some r.id, pending := names })
            (w := w.after [.opened r]) hopened hu
        refine ⟨answer, c', r :: new, rest, ?_, rfl, hbehind.unread, hbehind.returned, ?_,
          fun name hname => ?_⟩
        · rw [hrun]
          exact hsearch.trans (by rw [World.after_after]; rfl)
        · refine hbehind.tracked.mono (fun _ => id) fun r' ns hr' => ?_
          rcases hr' with (hread | ⟨rfl, rfl⟩) | ⟨hr', hns⟩
          · exact .inl hread
          · exact .inr ⟨List.mem_cons_self, hnames⟩
          · exact .inr ⟨List.mem_cons_of_mem r hr', hns⟩
        · rcases hname with hname | ⟨r', hr', ns, hns, hname⟩
          · exact keeps_of_isSkipped (hall name hname) hbehind.returned
          · refine hbehind.kept name ?_
            rcases List.mem_cons.mp hr' with rfl | hr'
            · obtain rfl := Except.ok.inj (hns.symm.trans hnames)
              exact .inl hname
            · exact .inr ⟨r', hr', ns, hns, hname⟩
    · refine ⟨.ok true, _, [], r :: others, ?_, rfl,
        behind_of_found h w.files resource hpending hfront hname⟩
      rw [Candidates.search, hp]
      rfl

/-- Resources that have just been located are tracked as such. -/
theorem Tracked.unreadSome {rs : List Resource} {w : World} (h : c.Tracked L R)
    (hr : c.unopened w = .ok rs) :
    Tracked (fun l => L l ∨ c.unread = none ∧ l = rs) R { c with unread := some rs } := by
  cases hunread : c.unread with
  | some located =>
    rw [unopened, hunread] at hr
    obtain rfl := Except.ok.inj hr
    rw [← hunread]
    exact h.mono (fun _ => .inl) fun _ _ => id
  | none =>
    obtain ⟨hpending, -, -⟩ := h.unlocated hunread
    exact tracked_of_unread rfl ⟨[], .inr ⟨rfl, rfl⟩⟩ (fun hne => absurd hpending hne) h.waiting

/-- So does asking for another candidate, once the resources have been located. -/
theorem Tracked.hasNext (known : String → Bool) {rs : List Resource} {w : World}
    (h : c.Tracked L R) (hu : c.upcoming = none) (hr : c.unopened w = .ok rs) :
    ∃ answer c' new rest es, (c.hasNext known).run w = ((answer, c'), w.after es) ∧
      (∀ r ∈ new, .opened r ∈ es) ∧ rs = new ++ rest ∧
      Behind (fun l => L l ∨ c.unread = none ∧ l = rs) R known w.files c new rest c' := by
  have htracked := h.unreadSome hr
  cases hunread : c.unread with
  | some located =>
    rw [unopened, hunread] at hr
    obtain rfl := Except.ok.inj hr
    obtain ⟨answer, c', new, rest, hrun, hrs, hbehind⟩ :=
      htracked.search known located (w := w) hu
    rw [hunread] at hbehind
    refine ⟨answer, c', new, rest, _, ?_, fun r => List.mem_map_of_mem, hrs, hbehind⟩
    rw [← hrun]
    simp [Candidates.hasNext, hu, hunread]
  | none =>
    obtain ⟨asked, hlocate, -⟩ := locate_of_unopened hunread hr
    obtain ⟨answer, c', new, rest, hrun, hrs, hbehind⟩ :=
      htracked.search known rs (w := w.after asked) hu
    rw [hunread] at hbehind
    refine ⟨answer, c', new, rest, asked ++ new.map .opened, ?_,
      fun r hr => List.mem_append_right _ (List.mem_map_of_mem hr), hrs, hbehind⟩
    rw [run_hasNext_of_located known hu hunread hlocate, hrun, World.after_after]

/-! ### Names without a resource -/

/-- Looks through the pending names for one that is not skipped, but does **something else** with a
name whose resource is not known. -/
def searchPendingElse (lost : Candidates → String → List String → Bool × Candidates)
    (known : String → Bool) (c : Candidates) : List String → Bool × Candidates
  | [] => (false, { c with pending := [] })
  | name :: rest =>
    if c.isSkipped known name then c.searchPendingElse lost known rest
    else
      match c.current with
      | some resource => (true, { c with pending := rest, upcoming := some ⟨name, resource⟩ })
      | none => lost c name rest

/-- The search through resources that does so. -/
def searchElse (lost : Candidates → String → List String → Bool × Candidates)
    (known : String → Bool) :
    List Resource → Candidates → Action (Except DiscoveryError Bool × Candidates)
  | unread, c => do
    let (found, c) := c.searchPendingElse lost known c.pending
    if found then return (.ok true, { c with unread := some unread })
    else
      match unread with
      | [] => return (.ok false, { c with unread := some [] })
      | r :: rest =>
        match ← listedNames c.capability r with
        | .error e => return (.error e, { c with unread := some rest })
        | .ok names =>
          searchElse lost known rest { c with current := some r.id, pending := names }

/-- Whether there is another candidate, as such a search finds it. -/
def hasNextElse (lost : Candidates → String → List String → Bool × Candidates)
    (known : String → Bool) (c : Candidates) :
    Action (Except DiscoveryError Bool × Candidates) := do
  if c.upcoming.isSome then return (.ok true, c)
  else
    match c.unread with
    | some unread => searchElse lost known unread c
    | none =>
      match ← (c.scope.locate c.capability).run with
      | .error cause => return (.error ⟨c.capability, .scope cause⟩, c)
      | .ok unread => searchElse lost known unread c

variable {lost : Candidates → String → List String → Bool × Candidates}

/-- With the resource known, or if the same is done without it, it is the same search. -/
theorem searchPendingElse_eq {names : List String}
    (h : c.current = none → ∀ name ∈ names, ∀ rest, lost c name rest = c.searchPending known rest) :
    c.searchPendingElse lost known names = c.searchPending known names := by
  induction names with
  | nil => rfl
  | cons name rest ih =>
    rw [searchPendingElse, searchPending]
    split
    · exact ih fun hcurrent other hother => h hcurrent other (List.mem_cons_of_mem name hother)
    · cases hcurrent : c.current with
      | some resource => rfl
      | none => exact h hcurrent name List.mem_cons_self rest

theorem searchElse_eq {rs : List Resource}
    (h : c.current = none → ∀ name ∈ c.pending, ∀ rest,
      lost c name rest = c.searchPending known rest) :
    searchElse lost known rs c = search known rs c := by
  induction rs generalizing c with
  | nil => rw [searchElse, search, searchPendingElse_eq h]
  | cons r rest ih =>
    rw [searchElse, search, searchPendingElse_eq h]
    rcases c.searchPending known c.pending with ⟨found, c₁⟩
    cases found with
    | true => rfl
    | false =>
      refine bind_congr fun answer => ?_
      cases answer with
      | error e => rfl
      -- Once a resource has been opened, it is known.
      | ok names => exact ih fun hnone => by cases hnone

theorem hasNextElse_eq
    (h : c.current = none → ∀ name ∈ c.pending, ∀ rest,
      lost c name rest = c.searchPending known rest) :
    c.hasNextElse lost known = c.hasNext known := by
  simp only [hasNextElse, searchElse_eq h]
  rfl

end Candidates

/-! ### Whole enquiries -/

/-- Whether a name is known to whoever asks. -/
def Question.knows : Question → String → Bool
  | .peek known, name => known name
  | .take known, name => known name
  | .remove, _ => false
  | .meanwhile _ _, _ => false

namespace Enquiry

/-- A question **locates** resources when they had not been located before it, and have been after
it. -/
def Locates (s : Enquiry) (q : Question) (rs : List Resource) : Prop :=
  s.candidates.unread = none ∧ (s.step q).candidates.unread.isSome ∧
    ((s.candidates.scope.locate s.candidates.capability).run.run s.world).1 = .ok rs

/-- A question **reads** names in a resource when the resource is still to be opened before it and
no longer after it, has been opened meanwhile, and lists these names. -/
def Reads (s : Enquiry) (q : Question) (r : Resource) (names : List String) : Prop :=
  (∃ new rest, s.candidates.unopened s.world = .ok (new ++ rest) ∧
    (s.step q).candidates.unread = some rest ∧ r ∈ new) ∧
  .opened r ∈ (s.step q).world.eventsSince s.world ∧
  r.namesIn s.candidates.capability s.world.files = .ok names

/-- A question **passes over** a name that is known when the name is pending, or is read. -/
def PassesOver (s : Enquiry) (q : Question) (name : String) : Prop :=
  q.knows name ∧ (name ∈ s.candidates.pending ∨ ∃ r names, s.Reads q r names ∧ name ∈ names)

/-- Something is true **sometime** in a run of questions, of one of them and the state before it. -/
def Sometime (s : Enquiry) (qs : List Question) (P : Enquiry → Question → Prop) : Prop :=
  ∃ front q back, qs = front ++ q :: back ∧ P (s.after front) q

variable {s : Enquiry} {q : Question} {L : List Resource → Prop}
  {R : Resource → List String → Prop}

theorem sometime_concat {qs : List Question} {P : Enquiry → Question → Prop} :
    s.Sometime (qs ++ [q]) P ↔ s.Sometime qs P ∨ P (s.after qs) q := by
  constructor
  · rintro ⟨front, other, back, hqs, h⟩
    rcases List.eq_nil_or_concat back with rfl | ⟨before, last, rfl⟩
    · obtain ⟨rfl, hlast⟩ := List.append_inj' hqs rfl
      obtain rfl := List.singleton_inj.mp hlast
      exact .inr h
    · rw [List.concat_eq_append, ← List.cons_append, ← List.append_assoc] at hqs
      obtain ⟨rfl, -⟩ := List.append_inj' hqs rfl
      exact .inl ⟨front, other, before, rfl, h⟩
  · rintro (⟨front, other, back, rfl, h⟩ | h)
    · exact ⟨front, other, back ++ [q], by simp, h⟩
    · exact ⟨qs, q, [], rfl, h⟩

/-! #### One question -/

theorem unread_step_take (s : Enquiry) (known : String → Bool) :
    (s.step (.take known)).candidates.unread = (s.step (.peek known)).candidates.unread := by
  rw [step_take_eq, Candidates.handedOut]
  cases (s.step (.peek known)).candidates.upcoming <;> rfl

theorem locates_take (s : Enquiry) (known : String → Bool) :
    s.Locates (.take known) = s.Locates (.peek known) := by
  funext rs
  rw [Locates, Locates, unread_step_take]

theorem reads_take (s : Enquiry) (known : String → Bool) :
    s.Reads (.take known) = s.Reads (.peek known) := by
  funext r names
  rw [Reads, Reads, unread_step_take, step_take_eq]

/-- A question that leaves the candidates as they are reads nothing. -/
theorem not_reads_of_candidates_eq (h : (s.step q).candidates = s.candidates) (r : Resource)
    (names : List String) : ¬ s.Reads q r names := by
  rintro ⟨⟨new, rest, hunopened, hunread, hr⟩, -⟩
  rw [h] at hunread
  rw [Candidates.unopened, hunread] at hunopened
  have hnew : new = [] := List.self_eq_append_left.mp (Except.ok.inj hunopened)
  rw [hnew] at hr
  cases hr

/-- A peek leaves the candidates as they are, or has searched through resources. -/
theorem step_peek_cases (h : s.candidates.Tracked L R) (known : String → Bool) :
    (s.step (.peek known)).candidates = s.candidates ∨
    ∃ new rest, s.candidates.upcoming = none ∧
      s.candidates.unopened s.world = .ok (new ++ rest) ∧
      (∀ r ∈ new, .opened r ∈ (s.step (.peek known)).world.eventsSince s.world) ∧
      Candidates.Behind (fun l => L l ∨ s.candidates.unread = none ∧ l = new ++ rest) R known
        s.world.files s.candidates new rest (s.step (.peek known)).candidates := by
  cases hu : s.candidates.upcoming with
  | some candidate => exact .inl (by rw [step_peek_of_waits hu])
  | none =>
    cases hr : s.candidates.unopened s.world with
    | error cause =>
      cases hunread : s.candidates.unread with
      | some rs =>
        rw [Candidates.unopened, hunread] at hr
        cases hr
      | none =>
        obtain ⟨asked, hlocate, -⟩ := Candidates.locate_of_unopened hunread hr
        refine .inl ?_
        rw [step, Candidates.run_hasNext_of_unlocated known hu hunread hlocate]
    | ok rs =>
      obtain ⟨answer, c, new, rest, es, hrun, hes, rfl, hbehind⟩ := h.hasNext known hu hr
      refine .inr ⟨new, rest, rfl, rfl, ?_⟩
      rw [step, hrun]
      exact ⟨by simpa using hes, hbehind⟩

/-- What a search has read is what the peek reads. -/
theorem reads_peek_iff {known : String → Bool} {new rest : List Resource} {r : Resource}
    {names : List String} (hr : s.candidates.unopened s.world = .ok (new ++ rest))
    (hopened : ∀ r ∈ new, .opened r ∈ (s.step (.peek known)).world.eventsSince s.world)
    (hunread : (s.step (.peek known)).candidates.unread = some rest) :
    s.Reads (.peek known) r names ↔
      r ∈ new ∧ r.namesIn s.candidates.capability s.world.files = .ok names := by
  constructor
  · rintro ⟨⟨new', rest', hr', hunread', hmem⟩, -, hnames⟩
    obtain rfl := Option.some.inj (hunread.symm.trans hunread')
    have hnew := Except.ok.inj (hr.symm.trans hr')
    rw [List.append_left_inj] at hnew
    rw [hnew]
    exact ⟨hmem, hnames⟩
  · rintro ⟨hmem, hnames⟩
    exact ⟨⟨new, rest, hr, hunread, hmem⟩, hopened r hmem, hnames⟩

/-- A peek keeps track. -/
theorem tracked_step_peek (h : s.candidates.Tracked L R) (known : String → Bool) :
    (s.step (.peek known)).candidates.Tracked (fun rs => L rs ∨ s.Locates (.peek known) rs)
      fun r names => R r names ∨ s.Reads (.peek known) r names := by
  rcases step_peek_cases h known with hsame | ⟨new, rest, -, hr, hopened, hbehind⟩
  · rw [hsame]
    exact h.mono (fun _ => .inl) fun _ _ => .inl
  · refine hbehind.tracked.mono (fun l hl => ?_) fun r names => ?_
    · rcases hl with hl | ⟨hunread, rfl⟩
      · exact .inl hl
      · rw [Candidates.unopened, hunread] at hr
        exact .inr ⟨hunread, by rw [hbehind.unread]; rfl, hr⟩
    · rw [reads_peek_iff hr hopened hbehind.unread]
      exact id

/-- So does every question. -/
theorem tracked_step (h : s.candidates.Tracked L R) (q : Question) :
    (s.step q).candidates.Tracked (fun rs => L rs ∨ s.Locates q rs)
      fun r names => R r names ∨ s.Reads q r names := by
  cases q with
  | peek known => exact tracked_step_peek h known
  | take known =>
    rw [locates_take, reads_take, step_take_eq]
    exact (tracked_step_peek h known).handedOut
  | remove => exact h.mono (fun _ => .inl) fun _ _ => .inl
  | meanwhile files others => exact h.mono (fun _ => .inl) fun _ _ => .inl

/-- A question that leaves the candidates as they are loses no name. -/
theorem keeps_of_candidates_eq (hsame : (s.step q).candidates = s.candidates) {name : String}
    (hname : s.candidates.Keeps name ∨ ∃ r names, s.Reads q r names ∧ name ∈ names) :
    (s.step q).candidates.Keeps name := by
  rcases hname with hname | ⟨r, names, hreads, -⟩
  · rwa [hsame]
  · exact absurd hreads (not_reads_of_candidates_eq hsame r names)

/-- A peek loses no name that has been kept, or that it reads. -/
theorem keeps_step_peek (h : s.candidates.Tracked L R) (known : String → Bool) {name : String}
    (hname : s.candidates.Keeps name ∨ ∃ r names, s.Reads (.peek known) r names ∧ name ∈ names) :
    s.PassesOver (.peek known) name ∨ (s.step (.peek known)).candidates.Keeps name := by
  rcases step_peek_cases h known with hsame | ⟨new, rest, hu, hr, hopened, hbehind⟩
  · exact .inr (keeps_of_candidates_eq hsame hname)
  · rcases hname with (hreturned | ⟨candidate, hcandidate, -⟩ | hpending) | ⟨r, names, hreads, hmem⟩
    · refine .inr (.inl ?_)
      rwa [hbehind.returned]
    · rw [hu] at hcandidate
      cases hcandidate
    · exact (hbehind.kept name (.inl hpending)).imp_left fun hknown => ⟨hknown, .inl hpending⟩
    · obtain ⟨hnew, hnames⟩ := (reads_peek_iff hr hopened hbehind.unread).mp hreads
      exact (hbehind.kept name (.inr ⟨r, hnew, names, hnames, hmem⟩)).imp_left
        fun hknown => ⟨hknown, .inr ⟨r, names, hreads, hmem⟩⟩

/-- Nor does any question. -/
theorem keeps_step (h : s.candidates.Tracked L R) (q : Question) {name : String}
    (hname : s.candidates.Keeps name ∨ ∃ r names, s.Reads q r names ∧ name ∈ names) :
    s.PassesOver q name ∨ (s.step q).candidates.Keeps name := by
  cases q with
  | peek known => exact keeps_step_peek h known hname
  | take known =>
    rw [reads_take] at hname
    rw [PassesOver, reads_take, step_take_eq]
    exact (keeps_step_peek h known hname).imp_right Candidates.Keeps.handedOut
  | remove => exact .inr (keeps_of_candidates_eq rfl hname)
  | meanwhile files others => exact .inr (keeps_of_candidates_eq rfl hname)

/-! #### A run of questions -/

/-- A run of questions keeps track from the start. -/
theorem tracked_after (capability : CapabilityId) (scope : Scope) (w : World)
    (qs : List Question) :
    let s := start capability scope w
    (s.after qs).candidates.Tracked (fun rs => s.Sometime qs (·.Locates · rs))
      fun r names => s.Sometime qs (·.Reads · r names) := by
  intro s
  induction qs using List.reverseRecOn with
  | nil => exact Candidates.tracked_start _ _ capability scope
  | append_singleton qs q ih =>
    rw [after_concat]
    exact (tracked_step ih q).mono (fun _ => sometime_concat.mpr) fun _ _ => sometime_concat.mpr

/-- A name that has been read is kept, unless a question passes over it. -/
theorem keeps_after (capability : CapabilityId) (scope : Scope) (w : World) (qs : List Question)
    {r : Resource} {names : List String} {name : String} (hname : name ∈ names) :
    let s := start capability scope w
    s.Sometime qs (·.Reads · r names) →
      s.Sometime qs (·.PassesOver · name) ∨ (s.after qs).candidates.Keeps name := by
  intro s hreads
  induction qs using List.reverseRecOn with
  | nil =>
    obtain ⟨front, q, back, hqs, -⟩ := hreads
    exact absurd hqs (by simp)
  | append_singleton qs q ih =>
    have hkept : s.Sometime qs (·.PassesOver · name) ∨
        ((s.after qs).candidates.Keeps name ∨
          ∃ r names, (s.after qs).Reads q r names ∧ name ∈ names) := by
      rcases sometime_concat.mp hreads with hbefore | hnow
      · exact (ih hbefore).imp_right .inl
      · exact .inr (.inr ⟨r, names, hnow, hname⟩)
    rw [after_concat, sometime_concat]
    rcases hkept with hpassed | hkept
    · exact .inl (.inl hpassed)
    · exact (keeps_step (tracked_after capability scope w qs) q hkept).imp_left .inr

/-- **No pending name is lost.** Take any run of questions in any scope, each with known names of
its own, whatever fails and whatever happens to the files meanwhile. If names are pending, they are
the last part of the names that were read in a resource sometime; that resource is the current one,
and it stood right before those that are still to be opened when the resources were located. As long
as resources have not been located, no name is pending, waits or has been handed out. A candidate
that waits has not been handed out. So whether there is another candidate does not depend on what a
search does with a name whose resource is not known; going on without it is only one of the
possibilities. And a name that was read sometime has been handed out, waits or is pending, unless a
question has passed over it because it was known. -/
theorem pending_names_kept (capability : CapabilityId) (scope : Scope) (w : World)
    (qs : List Question) :
    let s := start capability scope w
    let c := (s.after qs).candidates
    (c.pending ≠ [] →
      ∃ front r rs names, s.Sometime qs (·.Locates · (front ++ r :: rs)) ∧ c.unread = some rs ∧
        c.current = some r.id ∧ s.Sometime qs (·.Reads · r names) ∧ c.pending <:+ names) ∧
    (c.unread = none → c.pending = [] ∧ c.upcoming = none ∧ c.returned = []) ∧
    (∀ candidate, c.upcoming = some candidate → candidate.name ∉ c.returned) ∧
    (∀ lost known, c.hasNextElse lost known = c.hasNext known) ∧
    (∀ (any : Candidates) known,
      any.hasNextElse (fun c _ rest => c.searchPending known rest) known = any.hasNext known) ∧
    ∀ r names, s.Sometime qs (·.Reads · r names) → ∀ name ∈ names,
      s.Sometime qs (·.PassesOver · name) ∨ c.Keeps name := by
  intro s c
  have htracked := tracked_after capability scope w qs
  refine ⟨htracked.pending, htracked.unlocated, htracked.waiting, fun lost known => ?_,
    fun any known => Candidates.hasNextElse_eq fun _ _ _ _ => rfl,
    fun r names hreads name hname => keeps_after capability scope w qs hname hreads⟩
  refine Candidates.hasNextElse_eq fun hcurrent name hname => ?_
  obtain ⟨resource, hresource⟩ := htracked.exists_current (List.ne_nil_of_mem hname)
  rw [hcurrent] at hresource
  cases hresource

/-- A resource that lists two names. -/
def listsTwo : Resource := .ofBytes ⟨"1"⟩ (Text.Utf8.encode "A\nB")

/-- An enquiry for the names in it. -/
def amongTwo : Enquiry :=
  start ⟨"x.Codec"⟩ (.party ⟨⟨0⟩, "two", fun _ _ => .ok [listsTwo]⟩) (.fresh ∅ ∅)

/-- When `A` has been taken, `B` is the last part of what was read, and no name is lost. -/
theorem pending_names_kept_twoNames :
    let c := (amongTwo.after [.take knowsNothing]).candidates
    c.pending = ["B"] ∧
      (∃ r names, c.current = some r.id ∧
        amongTwo.Sometime [.take knowsNothing] (·.Reads · r names) ∧ c.pending <:+ names) ∧
      amongTwo.Sometime [.take knowsNothing] (·.Reads · listsTwo ["A", "B"]) ∧
      ∀ name ∈ ["A", "B"],
        amongTwo.Sometime [.take knowsNothing] (·.PassesOver · name) ∨ c.Keeps name := by
  intro c
  have hpending : c.pending = ["B"] := rfl
  have hreads : amongTwo.Sometime [.take knowsNothing] (·.Reads · listsTwo ["A", "B"]) := by
    refine ⟨[], .take knowsNothing, [], rfl,
      ⟨[listsTwo], [], rfl, rfl, List.mem_cons_self⟩, ?_, rfl⟩
    exact List.mem_cons_of_mem _ (List.mem_cons_of_mem _ List.mem_cons_self)
  obtain ⟨hresource, -, -, -, -, hkept⟩ := pending_names_kept ⟨"x.Codec"⟩
    (.party ⟨⟨0⟩, "two", fun _ _ => .ok [listsTwo]⟩) (.fresh ∅ ∅) [.take knowsNothing]
  obtain ⟨front, r, rs, names, -, -, hcurrent, hread, hsuffix⟩ := hresource nofun
  exact ⟨hpending, ⟨r, names, hcurrent, hread, hsuffix⟩, hreads, hkept listsTwo _ hreads⟩

end Enquiry

end ProviderDiscovery
