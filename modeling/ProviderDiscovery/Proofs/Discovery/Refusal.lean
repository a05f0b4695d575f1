import ProviderDiscovery.Proofs.Discovery.Loss
import ProviderDiscovery.Proofs.Discovery.Permissive

/-!
# Refused steps

An authority may not carry a step out, whether it refuses or just does not ask for it. A refused
search leaves everything as it was, so the session goes on as if the authority had not been entered.
A refused acceptance loses the name that was to be accepted, and nothing else: later passes yield
what they would have yielded if that one entrance had carried the step out, besides the provider of
that name. Under an authority that never asks for a step nothing is searched and nothing is made.
-/

namespace ProviderDiscovery

/-! ### Parties with one entrance changed -/

namespace AuthorityParty

/-- The party without one of its entrances: what it would have done later, it does one entrance
earlier. -/
def omitting (p : AuthorityParty) (k : Nat) : AuthorityParty :=
  { p with entrance := fun n => p.entrance (if n < k then n else n + 1) }

/-- The party that carries the step out at one of its entrances. -/
def granting (p : AuthorityParty) (k : Nat) : AuthorityParty :=
  { p with entrance := fun n => if n = k then ⟨1, none⟩ else p.entrance n }

theorem entrance_omitting_of_le (p : AuthorityParty) {k n : Nat} (h : k ≤ n) :
    (p.omitting k).entrance n = p.entrance (n + 1) :=
  congrArg p.entrance (if_neg (Nat.not_lt.mpr h))

theorem entrance_granting_of_ne (p : AuthorityParty) {k n : Nat} (h : n ≠ k) :
    (p.granting k).entrance n = p.entrance n :=
  if_neg h

/-- A party that permits all steps behind an entrance permits them from there on when it carries
that step out as well. -/
theorem permits_granting {p : AuthorityParty} {k : Nat}
    (hpermits : ∀ n, k < n → (p.entrance n).Permits) {n : Nat} (h : k ≤ n) :
    ((p.granting k).entrance n).Permits := by
  rcases Nat.eq_or_lt_of_le h with rfl | hlt
  · have hgranted : (p.granting k).entrance k = ⟨1, none⟩ := if_pos rfl
    rw [hgranted]
    exact ⟨Nat.one_ne_zero, rfl⟩
  · rw [p.entrance_granting_of_ne (Nat.ne_of_gt hlt)]
    exact hpermits n hlt

end AuthorityParty

/-! ### Steps that are not carried out -/

/-- Taking a name up is no call, so it makes no difference to an authority. -/
theorem Authority.entranceIn_after_accepting (a : Authority) (w : World) (es : List Event)
    (name : String) (resource : ResourceId) :
    a.entranceIn (w.after (es ++ [.accepting name resource])) = a.entranceIn (w.after es) := by
  rw [← World.after_after]
  cases a <;> rfl

namespace Discovery

variable {d d' : Discovery} {w w' : World}

/-- The error of a step that the authority does not carry out. -/
def denied (d : Discovery) (w : World) : DiscoveryError :=
  ⟨d.capability, .privilegeDenied (d.authority.denial (d.authority.entranceIn w))⟩

theorem run_nextCandidate_of_runs_eq_zero (hruns : (d.authority.entranceIn w).runs = 0) :
    d.nextCandidate.run w = ((.error (d.denied w), d), w.after d.authority.entry) := by
  rw [nextCandidate, Action.run_bind, Authority.run_of_runs_eq_zero hruns,
    Authority.enter_eq_after_entry]
  rfl

theorem run_acceptName_of_runs_eq_zero (hruns : (d.authority.entranceIn w).runs = 0)
    (name : String) :
    (d.acceptName name).run w = ((.error (d.denied w), d), w.after d.authority.entry) := by
  rw [acceptName, Action.run_bind, Authority.run_of_runs_eq_zero hruns,
    Authority.enter_eq_after_entry]
  rfl

/-- A step whose acceptance is refused takes the name up and makes nothing of it. -/
theorem run_advance_of_acceptance_refused {es : List Event} {candidate : Candidate}
    (h : d.nextCandidate.run w = ((.ok (some candidate), d'), w.after es))
    (hruns : (d'.authority.entranceIn (w.after es)).runs = 0) :
    d.advance.run w = ((.error (d'.denied (w.after es)), d'),
      w.after (es ++ .accepting candidate.name candidate.resource :: d'.authority.entry)) := by
  have hsame := d'.authority.entranceIn_after_accepting w es candidate.name candidate.resource
  rw [run_advance_of_candidate h (run_acceptName_of_runs_eq_zero (hsame ▸ hruns) candidate.name),
    denied, denied, hsame]
  rfl

/-- Searches do the same under authorities that do the same at their one entrance. -/
theorem run_nextCandidate_under {a : Authority} {found : Option Candidate}
    (hentrance : a.entranceIn w = d.authority.entranceIn w) (hentry : a.entry = d.authority.entry)
    (h : d.nextCandidate.run w = ((.ok found, d'), w')) :
    (d.under a).nextCandidate.run w = ((.ok found, d'.under a), w') := by
  obtain ⟨hpermits, c, rfl, hnext⟩ := permits_of_run_nextCandidate h
  rw [← hentrance] at hpermits
  rw [← hentry] at hnext
  exact run_nextCandidate_of_permits (d := d.under a) hpermits hnext

/-- What a search has done that **obtained** a candidate. -/
structure Obtained (d : Discovery) (candidate : Candidate) (d' : Discovery) (es : List Event) :
    Prop where
  setting : d' = { d with candidates := d'.candidates }
  gave : Candidates.Gave d.instances.contains candidate d.candidates d'.candidates
  searched : ∀ e ∈ es, e.isSearch
  entered : ∃ fs, es = d.authority.entry ++ fs

theorem obtained_of_run_nextCandidate {es : List Event} {candidate : Candidate}
    (hu : d.candidates.upcoming = none)
    (h : d.nextCandidate.run w = ((.ok (some candidate), d'), w.after es)) :
    d.Obtained candidate d' es := by
  obtain ⟨-, c, rfl, hnext⟩ := permits_of_run_nextCandidate h
  obtain ⟨hgave, fs, hworld, hfs⟩ := Candidates.gave_of_run_next hu hnext
  rw [World.after_after] at hworld
  obtain rfl := World.after_inj hworld
  exact ⟨rfl, hgave,
    List.forall_mem_append.mpr ⟨fun _ => Authority.isSearch_of_mem_entry, hfs⟩, fs, rfl⟩

end Discovery

namespace Session

/-- The session under another authority. -/
def under (s : Session) (a : Authority) : Session := { s with discovery := s.discovery.under a }

/-- The session when the discovery has taken a step that failed: the pass in hand has yielded the
error and has ended. -/
def failed (s : Session) (d : Discovery) (es : List Event) (e : DiscoveryError) : Session where
  discovery := d
  world := s.world.after es
  pass := s.pass.map fun p => { p with ended := true }
  answers := s.answers ++ [some (.error e)]
  events := s.events ++ es

variable {s : Session} {d : Discovery} {es : List Event}

theorem next_of_advance_error (hs : s.isAttempt .next) {e : DiscoveryError}
    (hrun : s.discovery.advance.run s.world = ((.error e, d), s.world.after es)) :
    s.next = s.failed d es e := by
  obtain ⟨p, hp, hopen, hslot⟩ := exists_pass_of_isAttempt hs
  rw [next_of_run hp (Pass.run_next_of_advance hopen hslot hrun), failed, hp]
  rfl

/-- A **refused search** enters the authority and does nothing else. -/
theorem next_of_search_refused (hs : s.isAttempt .next)
    (hruns : (s.discovery.authority.entranceIn s.world).runs = 0) :
    s.next =
      s.failed s.discovery s.discovery.authority.entry (s.discovery.denied s.world) :=
  next_of_advance_error hs
    (Discovery.run_advance_of_error (Discovery.run_nextCandidate_of_runs_eq_zero hruns))

/-- A **refused acceptance** enters the authority behind the search, and does nothing else. -/
theorem next_of_acceptance_refused (hs : s.isAttempt .next) {candidate : Candidate}
    (hsearch : s.discovery.nextCandidate.run s.world =
      ((.ok (some candidate), d), s.world.after es))
    (hruns : (d.authority.entranceIn (s.world.after es)).runs = 0) :
    s.next = s.failed d (es ++ .accepting candidate.name candidate.resource :: d.authority.entry)
      (d.denied (s.world.after es)) :=
  next_of_advance_error hs (Discovery.run_advance_of_acceptance_refused hsearch hruns)

/-- A step that accepts a name yields the answer of the acceptance. -/
theorem next_of_accepted (hs : s.isAttempt .next) {answer : Except DiscoveryError Provider}
    (hrun : s.discovery.advance.run s.world = ((answer.map some, d), s.world.after es)) :
    s.next.discovery = d ∧ s.next.world = s.world.after es ∧
      s.next.answers = s.answers ++ [some answer] := by
  obtain ⟨p, hp, hopen, hslot⟩ := exists_pass_of_isAttempt hs
  rw [next_of_run hp (Pass.run_next_of_advance hopen hslot hrun)]
  cases answer <;> exact ⟨rfl, rfl, rfl⟩

end Session

/-! ### Behind a refused search -/

/-- Worlds in the first of which an authority has been entered once more, after so many entrances
in the other. -/
def World.Ahead (h : Handle) (k : Nat) (w w' : World) : Prop :=
  w.Alike h w' ∧ w.callCount h = w'.callCount h + 1 ∧ k ≤ w'.callCount h

theorem World.likeness_ahead (h : Handle) (k : Nat) : Likeness h (Ahead h k) where
  alike := And.left
  after := by
    rintro w w' ⟨halike, hcount, hle⟩ es
    refine ⟨halike.after rfl, ?_, Nat.le_trans hle (w'.callCount_le_after h es)⟩
    rw [callCount_after, callCount_after, hcount, Nat.add_right_comm]
  changed := by
    rintro w w' ⟨halike, hcount, hle⟩ files registry havoids
    exact ⟨⟨rfl, rfl, havoids, halike.history⟩, hcount, hle⟩

/-- An authority that has been entered once more goes in step with the one that leaves that
entrance out. -/
theorem Authority.inStep_omitting (token : Token) (party : AuthorityParty) (k : Nat) :
    (held token party).InStep party.handle (.held token (party.omitting k))
      (World.Ahead party.handle k) := by
  refine .of_entranceIn_eq (World.likeness_ahead party.handle k) rfl rfl ?_
  rintro w w' ⟨-, hcount, hle⟩
  change party.entrance (w.callCount party.handle) =
    (party.omitting k).entrance (w'.callCount party.handle)
  rw [party.entrance_omitting_of_le hle, hcount]

/-- A session in which a search was refused goes in step with the session under the authority that
leaves this entrance out, from the next pass on. -/
theorem Session.inStep_of_search_refused {s : Session} {token : Token} {party : AuthorityParty}
    (hs : s.InStep party.handle (.held token party) (.held token party)
      (World.Same party.handle) s)
    (e : DiscoveryError) :
    ((s.failed s.discovery [.entered party.handle token] e).step .iterate).InStep
      party.handle (.held token party)
      (.held token (party.omitting (s.world.callCount party.handle)))
      (World.Ahead party.handle (s.world.callCount party.handle))
      ((s.under (.held token (party.omitting (s.world.callCount party.handle)))).step
        .iterate) where
  beside := by
    obtain ⟨d, hd, hdiscovery, -⟩ := hs.beside
    refine ⟨d, hd, hdiscovery, ?_⟩
    change s.discovery.under _ = _
    rw [hdiscovery]
    rfl
  world := by
    have halike : s.world.Alike party.handle s.world := .refl hs.world.2
    have hentry : besides party.handle [.entered party.handle token] =
        besides party.handle [] := by simp [besides, Event.enters]
    exact ⟨halike.after hentry, s.world.callCount_after_entered .., Nat.le_refl _⟩
  pass := rfl
  answers := rfl
  events := by
    change besides party.handle (s.events ++ [.entered party.handle token]) =
      besides party.handle s.events
    rw [besides_append]
    simp [besides, Event.enters]

/-! ### Behind a refused acceptance -/

namespace Session

/-- Instances of a session and the names that it has handed out are what it has found. -/
theorem Kept.exists_past {s : Session} (h : s.Kept) :
    ∃ past : List Find, past.filterMap Find.provided? = s.discovery.instances.entries ∧
      past.filterMap Find.name? = s.discovery.candidates.returned :=
  ProviderDiscovery.exists_past h.entries_sublist ⟨s.discovery.capability, .notSupported ""⟩

section Acceptance

variable {s : Session} {candidate : Candidate} {d : Discovery} {es : List Event}
  {verdict : String → Verdict} {past : List Find}

/-- A discovery that has obtained a candidate and has dealt with its name, under any authority, has
consumed what was found before and the name. -/
theorem Kept.consumed_of_obtained (hk : s.Kept) (hd : s.discovery.Obtained candidate d es)
    (hentries : past.filterMap Find.provided? = s.discovery.instances.entries)
    (hreturned : past.filterMap Find.name? = s.discovery.candidates.returned)
    {rs : List Resource} (hunread : d.candidates.unread = some rs)
    (answer : Except DiscoveryError Provider) {t : Instances Provider}
    (ht : t.entries = s.discovery.instances.entries ++
      (Find.named candidate.name answer).provided?.toList)
    {d' : Discovery} {a : Authority} {w : World}
    (hd' : d' =
      { s.discovery with instances := t, candidates := d.candidates, authority := a })
    (hpermits : a.PermitsFrom w)
    (hverdict : ∀ asked calls name, s.discovery.resolver.verdict s.discovery.contract w.registry
      asked calls name = verdict name) :
    let front := past ++ [.named candidate.name answer]
    Consumed verdict (front ++ finds s.discovery.capability verdict w.constructed.length
        (d.candidates.ahead (fun _ => false) w.files rs)) front.length d' w := by
  subst hd'
  have hcapability := hd.gave.capability.trans hk.capability
  refine Consumed.of_front
    (d := { s.discovery with instances := t, candidates := d.candidates, authority := a })
    ?_ ?_ hd.gave.upcoming hcapability hunread hpermits hverdict
  · rw [List.filterMap_append, hentries, filterMap_singleton]
    exact ht
  · rw [List.filterMap_append, hreturned, filterMap_singleton]
    exact hd.gave.returned

/-- The authority was entered for the search before it is entered for the acceptance. -/
theorem callCount_lt_of_obtained {token : Token} {party : AuthorityParty} {d₀ : Discovery}
    (ha : d₀.authority = .held token party) (hd : d₀.Obtained candidate d es) (w : World) :
    w.callCount party.handle < (w.after es).callCount party.handle := by
  obtain ⟨fs, rfl⟩ := hd.entered
  rw [ha, ← World.after_after]
  refine Nat.lt_of_lt_of_le ?_ (World.callCount_le_after ..)
  rw [Authority.entry, World.callCount_after_entered]
  exact Nat.lt_succ_self _

variable {token : Token} {party : AuthorityParty} (hs : s.isAttempt .next)
  (ha : s.discovery.authority = .held token party)
  (hsearch : s.discovery.nextCandidate.run s.world =
    ((.ok (some candidate), d), s.world.after es))
  (hpermits : ∀ n, (s.world.after es).callCount party.handle < n → (party.entrance n).Permits)
  (hverdict : ∀ asked calls name, s.discovery.resolver.verdict s.discovery.contract
    s.world.registry asked calls name = verdict name)
include hs ha hsearch hpermits hverdict

/-- If the authority carries the acceptance out after all, the name gets the answer of its
verdict. -/
theorem next_granting (hu : s.discovery.candidates.upcoming = none) :
    let granted : Authority :=
      .held token (party.granting ((s.world.after es).callCount party.handle))
    let v := verdict candidate.name
    let s' := (s.under granted).next
    ∃ t serial,
      s'.discovery =
          { s.discovery with instances := t, candidates := d.candidates, authority := granted } ∧
        t.entries = s.discovery.instances.entries ++ v.made candidate.name serial ∧
        s'.answers =
          s.answers ++ [some (v.answer s.discovery.capability candidate.name serial)] ∧
        granted.PermitsFrom s'.world ∧ ∃ fs, s'.world = s.world.after fs := by
  intro granted v s'
  have hd := Discovery.obtained_of_run_nextCandidate hu hsearch
  have hlt := callCount_lt_of_obtained ha hd s.world
  have hentrance : granted.entranceIn s.world = s.discovery.authority.entranceIn s.world := by
    rw [ha]
    exact party.entrance_granting_of_ne (Nat.ne_of_lt hlt)
  have hsearch' := Discovery.run_nextCandidate_under hentrance (ha ▸ rfl) hsearch
  have hgranted : granted.PermitsFrom (s.world.after es) :=
    Authority.permitsFrom_held fun n hn => AuthorityParty.permits_granting hpermits hn
  obtain ⟨c, rfl⟩ : ∃ c, d = { s.discovery with candidates := c } := ⟨_, hd.setting⟩
  obtain ⟨asked, calls, t, fs, haccept, hentries, -⟩ := Discovery.run_acceptName_of_permits
    (d := { s.discovery with candidates := c, authority := granted })
    (hgranted.after [.accepting candidate.name candidate.resource]).permits hd.gave.unknown
  rw [World.registry_after, World.registry_after, hverdict] at haccept hentries
  rw [World.after_after] at haccept hentries
  obtain ⟨hdiscovery, hworld, hanswers⟩ := next_of_accepted (s := s.under granted) hs
    (Discovery.run_advance_of_candidate hsearch' haccept)
  refine ⟨t, _, hdiscovery, hentries, hanswers, ?_, _, hworld⟩
  have hlater := hgranted.after (.accepting candidate.name candidate.resource :: fs)
  rw [World.after_after] at hlater
  rw [hworld]
  exact hlater

/-- **A refused acceptance loses its name, and nothing else.** The session yields from then on what
it would have yielded if the authority had carried the acceptance out, besides the provider of that
name. -/
theorem Kept.sameBesides_of_acceptance_refused (hk : s.Kept)
    (hruns : (party.entrance ((s.world.after es).callCount party.handle)).runs = 0) :
    let granted : Authority :=
      .held token (party.granting ((s.world.after es).callCount party.handle))
    let v := verdict candidate.name
    let place := v.place? s.discovery.instances.entries.length
    let s' := (s.under granted).next
    (∃ serial,
        s'.answers = s.answers ++
          [some (v.answer s.discovery.capability candidate.name serial)] ∧
        s'.discovery.instances.entries =
          s.discovery.instances.entries ++ v.made candidate.name serial) ∧
      ∀ passes : List Nat, SameBesides place (s.next.after (passes.flatMap Operation.pass))
        (s'.after ((passes.map (requestsBesides place)).flatMap Operation.pass)) := by
  intro granted v place s'
  have hd := Discovery.obtained_of_run_nextCandidate hk.upcoming hsearch
  obtain ⟨t, serial, hdiscovery, hentries, hanswers, hpermitted, fs, hworld⟩ :=
    next_granting hs ha hsearch hpermits hverdict hk.upcoming
  refine ⟨⟨serial, hanswers, (congrArg (·.instances.entries) hdiscovery).trans hentries⟩,
    fun passes => ?_⟩
  -- Both sessions have one past, and differ in what has become of the name of the candidate.
  obtain ⟨past, hpast, hreturned⟩ := hk.exists_past
  obtain ⟨rs, hunread⟩ := hd.gave.located
  obtain ⟨c, rfl⟩ : ∃ c, d = { s.discovery with candidates := c } := ⟨_, hd.setting⟩
  have hnext := next_of_acceptance_refused hs hsearch (by rw [ha]; exact hruns)
  -- The refused entrance was the last one, so only those behind it are still to come.
  have hrefused : s.discovery.authority.PermitsFrom s.next.world := by
    rw [hnext, ha]
    refine Authority.permitsFrom_held fun n hn => hpermits n (Nat.lt_of_succ_le ?_)
    rw [failed, Authority.entry, List.append_cons, ← World.after_after,
      World.callCount_after_entered, ← World.after_after] at hn
    exact hn
  have hlost := hk.consumed_of_obtained hd hpast hreturned hunread
    (.error (s.discovery.denied s.world)) (List.append_nil _).symm
    (congrArg Session.discovery hnext) hrefused (by rw [hnext]; exact hverdict)
  have hkept := hk.consumed_of_obtained hd hpast hreturned hunread
    (v.answer s.discovery.capability candidate.name serial)
    (by rw [Find.toList_provided?_named]; exact hentries) hdiscovery hpermitted
    (by rw [hworld]; exact hverdict)
  have hplace : place = v.place? (past.filterMap Find.provided?).length := by rw [hpast]
  have hfiles : s.next.world.files = s'.world.files := by
    rw [hnext, hworld]
    rfl
  rw [hplace]
  refine sameBesides_after_passes hlost hkept ?_ passes
  rw [hfiles]
  exact map_told_finds ..

end Acceptance

/-! ### An authority that never asks for a step -/

/-- Under an authority that never asks for a step an operation enters it at most. -/
theorem done_of_silent {s : Session} {token : Token} {party : AuthorityParty}
    (ha : s.discovery.authority = .held token party) (hsilent : ∀ n, (party.entrance n).runs = 0)
    (op : Operation) : ∀ e ∈ s.done op, e = .entered party.handle token := by
  cases hop : s.isAttempt op with
  | false =>
    rw [done_of_isAttempt_eq_false hop]
    nofun
  | true =>
    have hruns : (s.discovery.authority.entranceIn s.world).runs = 0 := by
      rw [ha]
      exact hsilent _
    rw [done_of_isAttempt hop
      (Discovery.run_advance_of_error (Discovery.run_nextCandidate_of_runs_eq_zero hruns)), ha]
    exact fun e he => List.mem_singleton.mp he

theorem Kept.trace_of_silent {s : Session} (hk : s.Kept) {token : Token} {party : AuthorityParty}
    (ha : s.discovery.authority = .held token party) (hsilent : ∀ n, (party.entrance n).runs = 0)
    (ops : List Operation) : ∀ e ∈ s.trace ops, e = .entered party.handle token := by
  induction ops generalizing s with
  | nil => nofun
  | cons op rest ih =>
    obtain ⟨i, c, hstep⟩ := hk.setting_step op
    have ha' : (s.step op).discovery.authority = .held token party := by
      rw [hstep]
      exact ha
    exact List.forall_mem_append.mpr ⟨done_of_silent ha hsilent op, ih (hk.step op) ha'⟩

end Session

/-- **A refused step leaves what there is.** Let a discovery be under the authority of a party, let
any operations have been done, and let a request make the discovery take a step.

If the party does not ask for the search, the request yields the denial, and the discovery is as it
was. Unless the party is one that the discovery calls itself, later passes then go as they go under
the party without that entrance in the session without that request.

If the party asks for the search but not for the acceptance of the candidate that was found, the
request yields the denial, the instances are as they were, and nothing but the search has been done.
Let the party permit all later steps, and let each name have one verdict. If the party had carried
the acceptance out, the name would have got its answer, and its provider would have come next in
the table; later passes yield what they would have yielded then, besides that provider. In both
cases the pass in hand is dropped behind the request, since it goes on only if a provider was made.

A party that never asks for a step makes the discovery do nothing but enter it. -/
theorem Session.refused_steps (capability : CapabilityId) (contract : Contract) (scope : Scope)
    (resolver : Resolver) (token : Token) (party : AuthorityParty) (w : World)
    (ops : List Operation) :
    let h := party.handle
    let a : Authority := .held token party
    let denied : Nat → DiscoveryError := fun k =>
      ⟨capability, .privilegeDenied (a.denial (party.entrance k))⟩
    let s₀ := start (.start capability contract scope resolver a) w
    let s := s₀.after ops
    (s.isAttempt .next → ∀ k, k = s.world.callCount h → (party.entrance k).runs = 0 →
      s.next = s.failed s.discovery a.entry (denied k) ∧
        (scope.Avoids h → resolver.Avoids h → w.registry.Avoids h →
          ∀ more, (∀ op ∈ ops ++ more, op.Avoids h) →
            let t := s.next.step .iterate
            let t' := (s.under (.held token (party.omitting k))).step .iterate
            (t.after more).Agree h (t'.after more) ∧
              besides h (t.trace more) = besides h (t'.trace more))) ∧
    (s.isAttempt .next → ∀ candidate d es,
      s.discovery.nextCandidate.run s.world = ((.ok (some candidate), d), s.world.after es) →
      ∀ k, k = (s.world.after es).callCount h → (party.entrance k).runs = 0 →
        s.next = s.failed d (es ++ .accepting candidate.name candidate.resource :: a.entry)
            (denied k) ∧
          d.instances = s.discovery.instances ∧ (∀ e ∈ es, e.isSearch) ∧
          ∀ verdict : String → Verdict, (∀ n, k < n → (party.entrance n).Permits) →
            (∀ asked calls name,
              resolver.verdict contract s.world.registry asked calls name = verdict name) →
            let v := verdict candidate.name
            let place := v.place? s.discovery.instances.entries.length
            let t' := (s.under (.held token (party.granting k))).next
            (∃ serial,
                t'.answers = s.answers ++ [some (v.answer capability candidate.name serial)] ∧
                t'.discovery.instances.entries =
                  s.discovery.instances.entries ++ v.made candidate.name serial) ∧
              ∀ passes : List Nat, SameBesides place (s.next.after (passes.flatMap Operation.pass))
                (t'.after ((passes.map (requestsBesides place)).flatMap Operation.pass))) ∧
    ((∀ n, (party.entrance n).runs = 0) → ∀ e ∈ s₀.trace ops, e = .entered h token) := by
  intro h a denied s₀ s
  have hstart : s₀.Kept := kept_start capability contract scope resolver a w
  have hk : s.Kept := hstart.after ops
  obtain ⟨i, c, hsetting⟩ := hstart.setting_after ops
  have ha : s.discovery.authority = a := congrArg Discovery.authority hsetting
  have hcapability : s.discovery.capability = capability :=
    congrArg Discovery.capability hsetting
  have hverdicts : ∀ asked calls name, s.discovery.resolver.verdict s.discovery.contract
      s.world.registry asked calls name =
        resolver.verdict contract s.world.registry asked calls name := fun asked calls name => by
    rw [hsetting]
    rfl
  refine ⟨?search, ?acceptance, fun hsilent => hstart.trace_of_silent rfl hsilent ops⟩
  case search =>
    rintro hs _ rfl hruns
    have hnext := next_of_search_refused hs (by rw [ha]; exact hruns)
    rw [Discovery.denied, ha, hcapability] at hnext
    refine ⟨hnext, fun hscope hresolver hregistry more hops => ?_⟩
    obtain ⟨hops, hmore⟩ := List.forall_mem_append.mp hops
    obtain ⟨hin, -⟩ := (inStep_start hscope hresolver ⟨rfl, hregistry⟩ capability contract).after
      (a.inStep_self h) hops
    rw [hnext]
    obtain ⟨hafter, htrace⟩ := (inStep_of_search_refused hin _).after
      (Authority.inStep_omitting token party _) hmore
    exact ⟨hafter.agree, htrace⟩
  case acceptance =>
    rintro hs candidate d es hsearch _ rfl hruns
    have hd := Discovery.obtained_of_run_nextCandidate hk.upcoming hsearch
    have hauthority : d.authority = a := by
      rw [hd.setting]
      exact ha
    have hdenied : d.capability = capability := by
      rw [hd.setting]
      exact hcapability
    have hnext := next_of_acceptance_refused hs hsearch (by rw [hauthority]; exact hruns)
    rw [Discovery.denied, hauthority, hdenied] at hnext
    refine ⟨hnext, by rw [hd.setting], hd.searched, fun verdict hpermits hverdict => ?_⟩
    have hsame := Kept.sameBesides_of_acceptance_refused hs ha hsearch hpermits
      (fun asked calls name => (hverdicts asked calls name).trans (hverdict asked calls name))
      hk hruns
    rw [hcapability] at hsame
    exact hsame

/-- A party that refuses one step without asking for it, and permits all others. -/
def refusing (k : Nat) : AuthorityParty :=
  ⟨⟨9⟩, some ⟨"owner", .other⟩, fun n => if n = k then ⟨0, some "not now"⟩ else ⟨1, none⟩⟩

theorem permits_refusing {k n : Nat} (h : k < n) : ((refusing k).entrance n).Permits := by
  have hne : n ≠ k := Nat.ne_of_gt h
  simp only [refusing, if_neg hne]
  exact ⟨Nat.one_ne_zero, rfl⟩

/-- Names have one verdict in `twoTypes`, as its factories make a provider at every call. -/
theorem verdict_twoTypes (asked : Nat) (calls : Handle → Nat) (name : String) :
    Resolver.registry.verdict ⟨"Codec"⟩ twoTypes asked calls name =
      Resolver.registry.verdict ⟨"Codec"⟩ twoTypes 0 (fun _ => 0) name :=
  have hsteady : twoTypes.IsSteady := Registry.isSteady_registerAll (by simp)
  hsteady.verdict_eq _ asked calls name

/-- `A` has been made. If the search for `B` is refused, the next pass gets `B` all the same; if its
acceptance is refused, later passes get `A` only; and a party that never asks is just entered. -/
theorem Session.refused_twoNames :
    let begun := fun party => start (.start ⟨"x.Codec"⟩ ⟨"Codec"⟩ twoNames .registry
      (.held ⟨"owner", .other⟩ party)) (.fresh ∅ twoTypes)
    let made := fun party => (begun party).after [.iterate, .next]
    let denied : List (Option (Except DiscoveryError Provider)) :=
      [some (.ok ⟨"a", 1⟩), some (.error ⟨⟨"x.Codec"⟩, .privilegeDenied "not now"⟩)]
    ((made (refusing 2)).next.answers = denied ∧
        (((made (refusing 2)).next.step .iterate).after [.next, .next]).answers =
          [some (.ok ⟨"a", 1⟩), some (.ok ⟨"b", 2⟩)]) ∧
      ((made (refusing 3)).next.answers = denied ∧
        (((made (refusing 3)).next.after ([1].flatMap Operation.pass)).after
          (Operation.pass 2)).answers.map (Option.map toldAnswer) = [some (.ok "a"), none]) ∧
      ∀ e ∈ (begun ⟨⟨9⟩, none, fun _ => ⟨0, none⟩⟩).trace [.iterate, .next, .iterate, .next],
        e = .entered ⟨9⟩ ⟨"owner", .other⟩ := by
  intro begun made denied
  have hrefused := fun party ops => Session.refused_steps ⟨"x.Codec"⟩ ⟨"Codec"⟩ twoNames .registry
    ⟨"owner", .other⟩ party (.fresh ∅ twoTypes) ops
  refine ⟨?search, ?acceptance, (hrefused _ _).2.2 fun _ => rfl⟩
  case search =>
    have hscope : twoNames.Avoids (refusing 2).handle := by
      intro p _ _ hp
      simp [twoNames, Scope.leaves, Scope.parentLeaves] at hp
    have hregistry : (World.fresh ∅ twoTypes).registry.Avoids (refusing 2).handle :=
      Registry.avoids_of_entries (by decide)
    have hresolver : Resolver.registry.Avoids (refusing 2).handle := fun p hp => by cases hp
    obtain ⟨hnext, hlater⟩ := (hrefused (refusing 2) [.iterate, .next]).1 (by decide +kernel) 2
      (by decide +kernel) rfl
    obtain ⟨hagree, -⟩ := hlater hscope hresolver hregistry [.next, .next]
      (by simp [Operation.Avoids])
    refine ⟨?_, hagree.answers.trans (by decide +kernel)⟩
    rw [hnext]
    decide +kernel
  case acceptance =>
    obtain ⟨answer, c, es, -, hrun, -⟩ := Discovery.run_nextCandidate
      (made (refusing 3)).discovery (made (refusing 3)).world (by decide +kernel)
    have hfound : answer = .ok (some ⟨"B", ⟨"mem:m/META-INF/services/x.Codec#0"⟩⟩) := by
      rw [show answer = _ from congrArg (·.1.1) hrun.symm]
      decide +kernel
    have hcount : 3 = ((made (refusing 3)).world.after es).callCount ⟨9⟩ := by
      rw [show (made (refusing 3)).world.after es = _ from congrArg (·.2) hrun.symm]
      decide +kernel
    rw [hfound] at hrun
    obtain ⟨hnext, -, -, hlater⟩ := (hrefused (refusing 3) [.iterate, .next]).2.1
      (by decide +kernel) _ _ es hrun 3 hcount rfl
    obtain ⟨-, hsame⟩ := hlater _ (fun _ => permits_refusing) verdict_twoTypes
    have hmade : (made (refusing 3)).answers = [some (.ok ⟨"a", 1⟩)] := by decide +kernel
    refine ⟨(congrArg Session.answers hnext).trans ?_,
      ((hsame [1]).answers 2).trans (by decide +kernel)⟩
    exact congrArg (· ++ [some (.error ⟨⟨"x.Codec"⟩, .privilegeDenied "not now"⟩)]) hmade

end ProviderDiscovery
