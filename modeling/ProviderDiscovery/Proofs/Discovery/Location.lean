import ProviderDiscovery.Proofs.Discovery.Unasked

/-!
# Locating the resources

A discovery asks its scope at its first step, and at each later one for as long as the scope fails.
A pass at which it fails ends with that failure and leaves the discovery as it was. Once the scope
has answered, the discovery is a twin of one whose scope has answered at once, and no scope is asked
any more. `Round` is a pass with all that happens while it is in hand, and `Session.Fails` says that
the scope fails at the first request of each of a number of rounds.
-/

namespace ProviderDiscovery

/-! ### What happens besides requests -/

/-- Whether an operation leaves the discovery alone: a pass may be begun, and something else may
happen. -/
def Operation.isIdle : Operation → Bool
  | .next | .reload => false
  | _ => true

/-- The world when an operation has brought its change in from outside. -/
def World.changed (w : World) : Operation → World
  | .meanwhile files registry others => { w.after others with files := files, registry := registry }
  | _ => w

/-- The world when all changes in a run of operations have come in, and nothing else has been
done. -/
def World.changedBy (w : World) (ops : List Operation) : World := ops.foldl changed w

theorem World.changedBy_append (w : World) (ops more : List Operation) :
    w.changedBy (ops ++ more) = (w.changedBy ops).changedBy more :=
  List.foldl_append

/-- Worlds stay level when the same changes come in. -/
theorem World.Level.changedBy {H : Handle → Prop} {w w' : World}
    (hw : w.Level H (fun _ => True) w') (ops : List Operation) :
    (w.changedBy ops).Level H (fun _ => True) (w'.changedBy ops) := by
  induction ops generalizing w w' with
  | nil => exact hw
  | cons op rest ih =>
    cases op with
    | meanwhile files registry others =>
      have hchanged : World.Level H (fun _ => True) (w.changed (.meanwhile files registry others))
          (w'.changed (.meanwhile files registry others)) := (hw.after others).changed files trivial
      exact ih hchanged
    | _ => exact ih hw

/-- Operations **begin a pass** when one is begun among them, and it has not been asked yet. -/
structure Operation.BeginPass (ops : List Operation) : Prop where
  begun : .iterate ∈ ops
  idle : ∀ op ∈ ops, op.isIdle

/-- A **round**: a pass that is asked at least once, with all that happens before it is asked and
while it is in hand. -/
structure Round where
  /-- What happens before the first request. -/
  before : List Operation
  /-- What happens after it, further requests among it. -/
  rest : List Operation
  begins : Operation.BeginPass before
  keeps : ∀ op ∈ rest, op.keepsPass

/-- The operations of a round. -/
def Round.operations (r : Round) : List Operation := r.before ++ .next :: r.rest

/-- A round brings in the changes before and after the first request. -/
theorem Round.changedBy_operations (r : Round) (w : World) :
    w.changedBy r.operations = (w.changedBy r.before).changedBy r.rest :=
  World.changedBy_append ..

namespace Session

variable {s : Session}

/-- Idle operations bring changes in and keep a pass that has not been asked. -/
theorem after_of_isIdle (hp : s.pass = some .start) (hanswers : s.answers = [])
    {ops : List Operation} (hops : ∀ op ∈ ops, op.isIdle) :
    s.after ops = { s with world := s.world.changedBy ops } := by
  induction ops generalizing s with
  | nil => rfl
  | cons op rest ih =>
    have hrest : ∀ op ∈ rest, op.isIdle := fun op' hop' => hops op' (List.mem_cons_of_mem _ hop')
    cases op with
    | iterate =>
      have hsame : s.step .iterate = s := by
        rw [step, ← hp, ← hanswers]
      exact (congrArg (·.after rest) hsame).trans (ih hp hanswers hrest)
    | remove => exact ih hp hanswers hrest
    | meanwhile files registry others =>
      exact ih (s := s.step (.meanwhile files registry others)) hp hanswers hrest
    | _ => cases hops _ List.mem_cons_self

/-- A pass that is begun finds the discovery as it is. -/
theorem after_of_beginPass {ops : List Operation} (hops : Operation.BeginPass ops) :
    s.after ops = ⟨s.discovery, s.world.changedBy ops, some .start, [], s.events⟩ := by
  obtain ⟨hbegun, hidle⟩ := hops
  -- The induction stops at the first pass that is begun: what comes behind it is idle.
  induction ops generalizing s with
  | nil => cases hbegun
  | cons op rest ih =>
    have hrest : ∀ op ∈ rest, op.isIdle := fun op' hop' => hidle op' (List.mem_cons_of_mem _ hop')
    cases op with
    | iterate => exact after_of_isIdle (s := s.step .iterate) rfl rfl hrest
    | remove => exact ih ((List.mem_cons.mp hbegun).resolve_left nofun) hrest
    | meanwhile files registry others =>
      exact ih (s := s.step (.meanwhile files registry others))
        ((List.mem_cons.mp hbegun).resolve_left nofun) hrest
    | _ => cases hidle _ List.mem_cons_self

/-- A pass that has ended answers `none` for as long as it is in hand. -/
theorem after_of_ended {p : Pass} (hp : s.pass = some p) (hended : p.ended = true)
    {ops : List Operation} (hops : ∀ op ∈ ops, op.keepsPass) :
    s.after ops = { s with
      world := s.world.changedBy ops
      answers := s.answers ++ List.replicate (ops.countP (·.isRequest)) none } := by
  induction ops generalizing s with
  | nil => exact congrArg (Session.mk _ _ _ · _) (List.append_nil _).symm
  | cons op rest ih =>
    have hrest : ∀ op ∈ rest, op.keepsPass := fun op' hop' => hops op' (List.mem_cons_of_mem _ hop')
    cases op with
    | next =>
      have hnext := next_of_replay hp (Pass.run_next_of_ended hended s.discovery s.world)
      have hafter := ih (s := s.next) (by rw [hnext]) hrest
      rw [hnext] at hafter
      refine (congrArg (·.after rest) hnext).trans (hafter.trans ?_)
      rw [hp]
      simp [World.changedBy, World.changed, Operation.isRequest, List.replicate_succ]
    | remove => exact ih hp hrest
    | meanwhile files registry others =>
      exact ih (s := s.step (.meanwhile files registry others)) hp hrest
    | _ => cases hops _ List.mem_cons_self

end Session

/-! ### Scopes that fail -/

/-- A step at which the scope fails answers with that failure and changes nothing. -/
theorem Discovery.run_advance_of_unlocated {d : Discovery} {w w' : World} {cause : ScopeError}
    (hfresh : d.Fresh) (ha : d.authority = .unrestricted)
    (hlocate : (d.scope.locate d.capability).run.run w = (.error cause, w')) :
    d.advance.run w = ((.error ⟨d.capability, .scope cause⟩, d), w') := by
  have hsearch : (Candidates.next d.instances.contains d.candidates).run w =
      ((.error ⟨d.capability, .scope cause⟩, d.candidates), w') := by
    rw [hfresh.candidates]
    exact Candidates.run_next_of_unlocated _ rfl rfl hlocate
  exact run_advance_of_error (run_nextCandidate_of_unrestricted ha hsearch)

namespace Session

variable {s : Session}

/-- A fresh discovery takes a step at the first request of a pass. -/
theorem isAttempt_of_fresh (hfresh : s.discovery.Fresh) (hp : s.pass = some .start) :
    s.isAttempt .next := by
  have hslot : s.discovery.instances.getIndex? 0 = none := by
    rw [Instances.getIndex?, hfresh.entries]
    rfl
  simp [isAttempt, hp, Pass.start, hslot]

/-- **A round at which the scope fails** is answered with that failure and `none` from then on. The
discovery stays as it is, and scopes and their parties are all that is called. -/
theorem after_round_of_unlocated (hfresh : s.discovery.Fresh)
    (ha : s.discovery.authority = .unrestricted) {r : Round} {cause : ScopeError}
    (hlocate : ((s.discovery.scope.locate s.discovery.capability).run.run
      (s.after r.before).world).1 = .error cause) :
    ∃ es, s.after r.operations =
        ⟨s.discovery, ((s.world.changedBy r.before).after es).changedBy r.rest, some ⟨0, true⟩,
          some (.error ⟨s.discovery.capability, .scope cause⟩) ::
            List.replicate (r.rest.countP (·.isRequest)) none, s.events ++ es⟩ ∧
      (∀ e ∈ es, e.asks) ∧ CallsWithin s.discovery.scope.IsParty es := by
  have hbegun : s.after r.before = _ := after_of_beginPass r.begins
  rw [hbegun] at hlocate
  obtain ⟨answer, es, hrun, hasks, hcalls⟩ :=
    s.discovery.scope.exists_run_locate s.discovery.capability (s.world.changedBy r.before)
  obtain rfl : answer = .error cause := (congrArg Prod.fst hrun).symm.trans hlocate
  have hadvance := Discovery.run_advance_of_unlocated hfresh ha hrun
  have hattempt : (s.after r.before).isAttempt .next :=
    isAttempt_of_fresh (by rw [hbegun]; exact hfresh) (by rw [hbegun])
  obtain ⟨p, hp, -, hnext⟩ := next_of_isAttempt hattempt
    (by rw [hbegun]; exact hadvance)
  rw [hbegun] at hp hnext
  obtain rfl : Pass.start = p := Option.some.inj hp
  refine ⟨es, ?_, hasks, hcalls⟩
  rw [Round.operations, after_append, hbegun]
  refine (congrArg (·.after r.rest) hnext).trans ?_
  exact after_of_ended rfl rfl r.keeps

/-- The scope **fails** at the first request of each round, with the given errors. -/
def Fails (s : Session) : List (Round × ScopeError) → Prop
  | [] => True
  | (r, cause) :: more =>
    ((s.discovery.scope.locate s.discovery.capability).run.run (s.after r.before).world).1 =
        .error cause ∧
      (s.after r.operations).Fails more

/-- Rounds at which the scope fails come one after the other. -/
theorem fails_append {s : Session} {rounds more : List (Round × ScopeError)} :
    s.Fails (rounds ++ more) ↔
      s.Fails rounds ∧ (s.after (rounds.flatMap fun round => round.1.operations)).Fails more := by
  induction rounds generalizing s with
  | nil => simp [Fails, after]
  | cons round rest ih =>
    rw [List.cons_append, Fails, Fails, ih, List.flatMap_cons, after_append, and_assoc]

/-- Rounds at which the scope fails leave the discovery as it is, and a world that is level with
one in which nothing has been done but the same changes have come in: only the parties in the scope
can tell the two apart. -/
theorem after_of_fails (hfresh : s.discovery.Fresh) (ha : s.discovery.authority = .unrestricted)
    {rounds : List (Round × ScopeError)} (hfails : s.Fails rounds) {H : Handle → Prop}
    (hH : ∀ h, H h → ¬s.discovery.scope.IsParty h) {w : World}
    (hw : s.world.Level H (fun _ => True) w) :
    let failed := rounds.flatMap fun round => round.1.operations
    (s.after failed).discovery = s.discovery ∧
      (s.after failed).world.Level H (fun _ => True) (w.changedBy failed) := by
  intro failed
  -- The worlds part only where the scope is asked, and that calls nobody but its parties.
  induction rounds generalizing s w with
  | nil => exact ⟨rfl, hw⟩
  | cons round more ih =>
    obtain ⟨r, cause⟩ := round
    obtain ⟨hlocate, hmore⟩ := hfails
    obtain ⟨es, hafter, hasks, hcalls⟩ := after_round_of_unlocated hfresh ha hlocate
    have hdiscovery := congrArg Session.discovery hafter
    have hlevel : (s.after r.operations).world.Level H (fun _ => True)
        (w.changedBy r.operations) := by
      rw [hafter, r.changedBy_operations]
      refine .changedBy ((hw.changedBy r.before).after_left (fun e he h hcall => ?_) ?_) r.rest
      · exact fun hh => hH h hh (hcalls e he h hcall)
      · exact (unseen_of_isSearch fun e he => Event.isSearch_of_asks (hasks e he)).called
    obtain ⟨hrest, hlevels⟩ := ih (s := s.after r.operations) (hdiscovery ▸ hfresh)
      (hdiscovery ▸ ha) hmore (hdiscovery ▸ hH) hlevel
    rw [← after_append, ← World.changedBy_append] at hlevels
    rw [← after_append] at hrest
    exact ⟨hrest.trans hdiscovery, hlevels⟩

/-- Nothing but asking is done in them. -/
theorem asks_of_fails (hfresh : s.discovery.Fresh) (ha : s.discovery.authority = .unrestricted)
    {rounds : List (Round × ScopeError)} (hfails : s.Fails rounds)
    (hevents : ∀ e ∈ s.events, e.asks) :
    ∀ e ∈ (s.after (rounds.flatMap fun round => round.1.operations)).events, e.asks := by
  induction rounds generalizing s with
  | nil => exact hevents
  | cons round more ih =>
    obtain ⟨hlocate, hmore⟩ := hfails
    obtain ⟨es, hafter, hasks, -⟩ := after_round_of_unlocated hfresh ha hlocate
    have hdiscovery := congrArg Session.discovery hafter
    rw [List.flatMap_cons, after_append]
    refine ih (hdiscovery ▸ hfresh) (hdiscovery ▸ ha) hmore ?_
    rw [hafter]
    exact List.forall_mem_append.mpr ⟨hevents, hasks⟩

/-- The last of the rounds at which the scope fails is answered with its failure. -/
theorem answers_of_fails (hfresh : s.discovery.Fresh) (ha : s.discovery.authority = .unrestricted)
    {earlier : List (Round × ScopeError)} {r : Round} {cause : ScopeError}
    (hfails : s.Fails (earlier ++ [(r, cause)])) :
    (s.after ((earlier ++ [(r, cause)]).flatMap fun round => round.1.operations)).answers =
      some (.error ⟨s.discovery.capability, .scope cause⟩) ::
        List.replicate (r.rest.countP (·.isRequest)) none := by
  obtain ⟨hearlier, hlocate, -⟩ := fails_append.mp hfails
  obtain ⟨hbefore, -⟩ :=
    after_of_fails hfresh ha hearlier (H := fun _ => False) nofun (.refl trivial)
  obtain ⟨es, hafter, -⟩ := after_round_of_unlocated (hbefore ▸ hfresh) (hbefore ▸ ha) hlocate
  rw [List.flatMap_append, after_append, List.flatMap_singleton, hafter, hbefore]

end Session

/-! ### Scopes that answer -/

namespace Discovery

/-- The discovery in another scope, which its candidates are looked for in. -/
def inScope (d : Discovery) (scope : Scope) : Discovery :=
  { d with scope := scope, candidates := d.candidates.inScope scope }

/-- Twins that have been reloaded as often are the same in another scope. -/
theorem Twin.eq_inScope {H : Handle → Prop} {scope scope' : Scope} {d d' : Discovery}
    (h : Twin H scope scope' 0 d d') : d' = d.inScope scope' := by
  have hinstances : d.instances = d'.instances :=
    (Instances.Twin.mk h.entries_eq h.generation_eq rfl).eq
  rw [h.twin_eq, ← hinstances, h.candidates.twin_eq]
  rfl

/-- The discovery when its resources have been located. -/
def located (d : Discovery) (rs : List Resource) : Discovery :=
  { d with candidates := { d.candidates with unread := some rs } }

/-- A step at which the scope answers is the step of a discovery whose resources have been
located. -/
theorem run_advance_of_located {d : Discovery} {w w' : World} {rs : List Resource}
    (hfresh : d.Fresh) (ha : d.authority = .unrestricted)
    (hlocate : (d.scope.locate d.capability).run.run w = (.ok rs, w')) :
    d.advance.run w = (d.located rs).advance.run w' := by
  have hcandidates : d.candidates = .start d.capability d.scope := hfresh.candidates
  have hnext : (Candidates.next d.instances.contains d.candidates).run w =
      (Candidates.next d.instances.contains (d.located rs).candidates).run w' :=
    Candidates.run_next_of_located _ (by rw [hcandidates]; rfl) (by rw [hcandidates]; rfl)
      (by rw [hcandidates]; exact hlocate)
  obtain ⟨⟨⟨answer, c⟩, v⟩, hrun⟩ : ∃ found, (Candidates.next (d.located rs).instances.contains
      (d.located rs).candidates).run w' = found := ⟨_, rfl⟩
  have hsearch : d.nextCandidate.run w = (d.located rs).nextCandidate.run w' :=
    (run_nextCandidate_of_unrestricted ha (hnext.trans hrun)).trans
      (run_nextCandidate_of_unrestricted (d := d.located rs) ha hrun).symm
  rw [advance, advance, Action.run_bind, Action.run_bind, hsearch]

end Discovery

namespace Session

variable {s s' : Session}

/-- The session when its resources have been located. -/
def located (s : Session) (rs : List Resource) (es : List Event) : Session :=
  { s with
    discovery := s.discovery.located rs
    world := s.world.after es
    events := s.events ++ es }

/-- From a request on at which the scope answers, a session goes on as one whose resources have been
located. -/
theorem run_of_located (hfresh : s.discovery.Fresh) (ha : s.discovery.authority = .unrestricted)
    (hp : s.pass = some .start) {rs : List Resource} {es : List Event}
    (hlocate : (s.discovery.scope.locate s.discovery.capability).run.run s.world =
      (.ok rs, s.world.after es)) (more : List Operation) :
    s.after (.next :: more) = (s.located rs es).after (.next :: more) ∧
      s.trace (.next :: more) = es ++ (s.located rs es).trace (.next :: more) := by
  have hattempt := isAttempt_of_fresh hfresh hp
  have hlocated : (s.located rs es).isAttempt .next := hattempt
  have hu : (s.discovery.located rs).candidates.upcoming = none := by
    rw [Discovery.located, hfresh.candidates]
    rfl
  -- Both requests take a step: the same one, in the world in which the scope has answered.
  obtain ⟨answer, d, fs, hrun, -⟩ := (s.discovery.located rs).run_advance (s.world.after es) hu
  have hrun' := (Discovery.run_advance_of_located hfresh ha hlocate).trans hrun
  rw [World.after_after] at hrun'
  obtain ⟨p, hp, -, hnext⟩ := next_of_isAttempt hattempt hrun'
  obtain ⟨p', hp', -, hnext'⟩ := next_of_isAttempt hlocated hrun
  obtain rfl : p = p' := Option.some.inj (hp.symm.trans hp')
  have hsame : s.next = (s.located rs es).next := by
    rw [hnext, hnext']
    simp only [located, World.after_after, List.append_assoc]
  refine ⟨congrArg (·.after more) hsame, ?_⟩
  rw [trace, trace, done_of_isAttempt hattempt hrun', done_of_isAttempt hlocated hrun,
    List.append_assoc]
  exact congrArg (fun t : Session => es ++ (fs ++ t.trace more)) hsame

/-- Another session **goes on as** a session does, in another scope: from the next request on and
until a reload the discovery is the same besides the scope, the pass in hand and its answers are the
same, and so are those events that are seen. -/
def GoesOnAs (s' s : Session) (scope : Scope) (H : Handle → Prop) (seen : Event → Bool) : Prop :=
  ∀ more : List Operation, (∀ op ∈ more, op.isReload = false ∧ op.Within H) →
    let t := s.after (.next :: more)
    let t' := s'.after (.next :: more)
    t'.discovery = t.discovery.inScope scope ∧ t'.pass = t.pass ∧ t'.answers = t.answers ∧
      (s'.trace (.next :: more)).filter seen = (s.trace (.next :: more)).filter seen

/-- **A scope that answers now is as good as one that answers at once.** Two sessions that have not
found anything go on alike when their scopes answer with the same resources, if the worlds are level
then for all parties that are still to be called. -/
theorem goesOnAs_of_located {d : Discovery} (hfresh : d.Fresh) (ha : d.authority = .unrestricted)
    {H : Handle → Prop} (hresolver : d.resolver.Within H) {scope : Scope} (hs : s.discovery = d)
    (hs' : s'.discovery = d.inScope scope) (hp : s.pass = some .start) (hp' : s'.pass = some .start)
    (hanswers : s.answers = s'.answers) {rs : List Resource} {es es' : List Event}
    (hlocate : (d.scope.locate d.capability).run.run s.world = (.ok rs, s.world.after es))
    (hlocate' : (scope.locate d.capability).run.run s'.world = (.ok rs, s'.world.after es'))
    (hworld : (s.world.after es).Level H (·.Within H) (s'.world.after es')) {seen : Event → Bool}
    (hseen : es'.filter seen = es.filter seen) : s'.GoesOnAs s scope H seen := by
  intro more hmore t t'
  obtain ⟨d₁, w, _, _, _⟩ := s
  obtain ⟨d₁', w', _, _, _⟩ := s'
  obtain rfl : d₁ = d := hs
  obtain rfl : d₁' = d₁.inScope scope := hs'
  have hfresh' : (d₁.inScope scope).Fresh :=
    ⟨hfresh.entries, congrArg (·.inScope scope) hfresh.candidates⟩
  obtain ⟨hrun, hdone⟩ := run_of_located hfresh ha hp hlocate more
  obtain ⟨hrun', hdone'⟩ := run_of_located hfresh' ha hp' hlocate' more
  have hscope : d₁.candidates.scope = d₁.scope := by
    rw [hfresh.candidates]
    rfl
  -- With the resources located the scopes make no difference, so the sessions are twins.
  have htwin : Twin H d₁.scope scope 0 (located ⟨d₁, w, _, _, _⟩ rs es)
      (located ⟨d₁.inScope scope, w', _, _, _⟩ rs es') :=
    { discovery := ⟨rfl, rfl, rfl, rfl, ⟨hscope, rfl, .inl rfl⟩, hresolver, fun token p hheld => by
        cases ha.symm.trans hheld⟩
      world := hworld
      pass := hp.trans hp'.symm
      answers := hanswers }
  have hnone : ∀ op ∈ Operation.next :: more, op.isReload = false ∧ op.Within H :=
    List.forall_mem_cons.mpr ⟨⟨rfl, trivial⟩, hmore⟩
  have hreload : ∀ op ∈ Operation.next :: more, op.isReload →
      scope = d₁.scope ∧ d₁.scope.Within H := fun op hop hreload => by
    rw [(hnone op hop).1] at hreload
    cases hreload
  obtain ⟨hafter, htrace, -⟩ := htwin.after (fun op hop => (hnone op hop).2) hreload
  rw [show t = _ from hrun, show t' = _ from hrun', hdone, hdone', List.filter_append,
    List.filter_append, hseen, htrace]
  exact ⟨hafter.discovery.eq_inScope, hafter.pass.symm, hafter.answers.symm, rfl⟩

end Session

/-- The parties in neither scope. -/
def Scope.NoParty (scope scope' : Scope) (h : Handle) : Prop := ¬scope.IsParty h ∧ ¬scope'.IsParty h

/-- Worlds in which two scopes have been asked are still level for the parties in neither. -/
theorem World.Level.located {scope scope' : Scope} {w w' : World} {es es' : List Event}
    (hw : w.Level (scope.NoParty scope') (fun _ => True) w')
    (hregistry : w.registry.Within (scope.NoParty scope'))
    (hasks : ∀ e ∈ es, e.asks) (hcalls : CallsWithin scope.IsParty es)
    (hasks' : ∀ e ∈ es', e.asks) (hcalls' : CallsWithin scope'.IsParty es') :
    (w.after es).Level (scope.NoParty scope') (·.Within (scope.NoParty scope')) (w'.after es') := by
  have huncalled : ∀ {fs : List Event}, (∀ e ∈ fs, e.asks) → calledNames fs = [] := fun hfs =>
    (unseen_of_isSearch fun e he => Event.isSearch_of_asks (hfs e he)).called
  have hleft := hw.after_left (fun e he h hcall hh => hh.1 (hcalls e he h hcall)) (huncalled hasks)
  have hboth := hleft.symm.after_left (fun e he h hcall hh => hh.2 (hcalls' e he h hcall))
    (huncalled hasks')
  exact { hboth.symm with types := hregistry }

namespace Session

variable {s : Session}

/-- **After rounds at which its scope fails** a session goes on as one whose scope answers at once:
in a world that is level besides the parties in the scopes, or in the same world if asking does the
same. -/
theorem goesOnAs_of_fails {d : Discovery} (hfresh : d.Fresh) (ha : d.authority = .unrestricted)
    {w : World} {rounds : List (Round × ScopeError)} (hfails : (start d w).Fails rounds)
    {before : List Operation} (hbefore : Operation.BeginPass before) (scope : Scope)
    {rs : List Resource} :
    let failed := rounds.flatMap fun round => round.1.operations
    let t := (start d w).after (failed ++ before)
    let anew := fun v : World => (start (d.inScope scope) v).after before
    ((d.scope.locate d.capability).run.run t.world).1 = .ok rs →
      (((scope.locate d.capability).run.run (anew (w.changedBy failed)).world).1 = .ok rs →
        d.resolver.Within (d.scope.NoParty scope) →
        t.world.registry.Within (d.scope.NoParty scope) →
        (anew (w.changedBy failed)).GoesOnAs t scope (d.scope.NoParty scope) (!·.asks)) ∧
      ((scope.locate d.capability).run.run t.world =
          (d.scope.locate d.capability).run.run t.world →
        (anew ((start d w).after failed).world).GoesOnAs t scope (fun _ => True)
          fun _ => true) := by
  intro failed t anew hlocate
  obtain ⟨hdiscovery, hlevel⟩ := after_of_fails hfresh ha hfails (H := d.scope.NoParty scope)
    (fun h hh => hh.1) (.refl trivial)
  have ht : t = _ := (after_append ..).trans (after_of_beginPass hbefore)
  have hanew : ∀ v, anew v = _ := fun v => after_of_beginPass hbefore
  obtain ⟨answer, es, hrun, hasks, hcalls⟩ := d.scope.exists_run_locate d.capability t.world
  obtain rfl : answer = .ok rs := (congrArg Prod.fst hrun).symm.trans hlocate
  have htd : t.discovery = d := (congrArg Session.discovery ht).trans hdiscovery
  have htp : t.pass = some .start := congrArg Session.pass ht
  have htanswers : t.answers = [] := congrArg Session.answers ht
  have htworld : t.world = ((start d w).after failed).world.changedBy before :=
    congrArg Session.world ht
  refine ⟨fun hlocate' hresolver hregistry => ?_, fun hsame => ?_⟩
  · obtain ⟨answer', es', hrun', hasks', hcalls'⟩ :=
      scope.exists_run_locate d.capability (anew (w.changedBy failed)).world
    obtain rfl : answer' = .ok rs := (congrArg Prod.fst hrun').symm.trans hlocate'
    refine goesOnAs_of_located hfresh ha hresolver htd (by rw [hanew]; rfl) htp (by rw [hanew])
      (by rw [hanew, htanswers]) hrun hrun' (.located ?_ hregistry hasks hcalls hasks' hcalls') ?_
    · rw [htworld, hanew]
      exact hlevel.changedBy before
    · rw [List.filter_eq_nil_iff.mpr, List.filter_eq_nil_iff.mpr]
      · simpa using hasks
      · simpa using hasks'
  · have hworld : (anew ((start d w).after failed).world).world = t.world := by
      rw [hanew, htworld]
      rfl
    have hrun' : (scope.locate d.capability).run.run (anew ((start d w).after failed).world).world =
        (.ok rs, (anew ((start d w).after failed).world).world.after es) := by
      rw [hworld]
      exact hsame.trans hrun
    refine goesOnAs_of_located hfresh ha d.resolver.within_true htd (by rw [hanew]; rfl) htp
      (by rw [hanew]) (by rw [hanew, htanswers]) hrun hrun' ?_ rfl
    rw [hworld]
    exact .refl (Registry.within_true _)

/-! ### Scopes that have answered -/

/-- The candidates of a session that starts with a fresh discovery are looked for in one scope. -/
theorem scope_candidates_after {d : Discovery} (hfresh : d.Fresh) (w : World)
    (ops : List Operation) : ((start d w).after ops).discovery.candidates.scope = d.scope := by
  have htwin : Twin (fun _ => True) d.scope d.scope 0 (start d w) (start d w) :=
    twin_of_fresh hfresh hfresh.entries rfl w
  have hwithin : ∀ op ∈ ops, op.Within fun _ => True := fun op _ => op.within_true
  obtain ⟨hafter, -⟩ := htwin.after hwithin fun _ _ _ => ⟨rfl, fun _ _ _ _ => trivial⟩
  exact hafter.discovery.candidates.scope_eq

/-- **Once the scope has answered no scope is asked** until a reload. -/
theorem asks_eq_false_of_answer {d : Discovery} (hfresh : d.Fresh) {w : World}
    {ops : List Operation} {rs : List Resource} :
    let t := (start d w).after ops
    t.isAttempt .next → (d.authority.entranceIn t.world).runs ≠ 0 →
      ((d.scope.locate d.capability).run.run (t.world.after d.authority.entry)).1 = .ok rs →
      ∀ more : List Operation, (∀ op ∈ more, op.isReload = false) →
        ∀ e ∈ t.next.trace more, e.asks = false := by
  intro t hattempt hruns hlocate more hmore
  have hkept : t.Kept := (kept_of_fresh hfresh w).after ops
  have hscope : t.discovery.candidates.scope = d.scope := scope_candidates_after hfresh w ops
  obtain ⟨i, c, hsetting⟩ := (kept_of_fresh hfresh w).setting_after ops
  have hauthority : t.discovery.authority = d.authority := congrArg (·.authority) hsetting
  have hcapability : t.discovery.candidates.capability = d.capability :=
    hkept.capability.trans (congrArg (·.capability) hsetting)
  have hunopened : ∃ rs, t.discovery.candidates.unopened
      (t.world.after t.discovery.authority.entry) = .ok rs := by
    rw [Candidates.unopened, hscope, hcapability, hauthority]
    -- The scope's answer is needed only if nothing has been located before.
    cases t.discovery.candidates.unread with
    | some rs => exact ⟨rs, rfl⟩
    | none => exact ⟨rs, hlocate⟩
  obtain ⟨rs, hr⟩ := hunopened
  exact asks_eq_false_of_located (hkept.step .next)
    (located_next hkept.upcoming hattempt (hauthority ▸ hruns) hr) hmore

/-! ### Capabilities that are not qualified names -/

/-- No location succeeds, so the discovery stays fresh. -/
theorem fresh_after_of_not_isQualifiedName (hk : s.Kept) (hfresh : s.discovery.Fresh)
    (ha : s.discovery.authority = .unrestricted)
    (hname : isQualifiedName s.discovery.capability.text = false) (ops : List Operation) :
    (s.after ops).discovery.Fresh := by
  induction ops generalizing s with
  | nil => exact hfresh
  | cons op rest ih =>
    obtain ⟨i, c, hsetting⟩ := hk.setting_step op
    have hstep : (s.step op).discovery.Fresh := by
      cases op with
      | next =>
        have hrequested := requested_next hk.upcoming
        rw [Session.step]
        generalize s.next = t, s.done .next = es at hrequested ⊢
        cases hrequested with
        | stepped hp hopen hslot hrun =>
          have hlocate := Scope.run_locate_of_not_isQualifiedName hname s.discovery.scope s.world
          have hsame := (Discovery.run_advance_of_unlocated hfresh ha hlocate).symm.trans hrun
          exact (congrArg (·.1.2.Fresh) hsame).mp hfresh
        | _ => exact hfresh
      | reload => exact fresh_step_reload s
      | _ => exact hfresh
    exact ih (hk.step op) hstep (by rw [hsetting]; exact ha) (by rw [hsetting]; exact hname)

end Session

/-- **A failed enumeration costs nothing but the pass.** Let a discovery have found nothing yet.

Without authority, let its scope fail at the first request of each of any number of rounds. Each of
them is answered with the failure of the scope and then with `none`, leaves the discovery as it is,
and does nothing but asking. When the scope answers then, the session goes on as one whose scope
answers with the same resources at once: in a world in which the scopes have not been asked at all,
for all that is done besides asking, if neither the resolver nor the factories call the parties in
the scopes; and in the same world, for all that is done, if asking does the same.

Once the scope has been asked and has answered, no scope is asked any more until a reload, whatever
the authority. And for a capability that is not a qualified name no scope is asked at all: each pass
fails with that, whatever has been done before. -/
theorem Session.failed_enumeration_costs_a_pass {d : Discovery} (hfresh : d.Fresh) (w : World) :
    let s := start d w
    let locate := fun (scope : Scope) (v : World) => (scope.locate d.capability).run.run v
    (d.authority = .unrestricted → ∀ rounds : List (Round × ScopeError), s.Fails rounds →
      let failed := rounds.flatMap fun round => round.1.operations
      (∀ earlier r cause, rounds = earlier ++ [(r, cause)] →
        (s.after failed).answers = some (.error ⟨d.capability, .scope cause⟩) ::
            List.replicate (r.rest.countP (·.isRequest)) none ∧
          (s.after failed).discovery = d ∧ ∀ e ∈ (s.after failed).events, e.asks) ∧
      ∀ before, Operation.BeginPass before → ∀ scope rs,
        let t := s.after (failed ++ before)
        let anew := fun v : World => (start (d.inScope scope) v).after before
        (locate d.scope t.world).1 = .ok rs →
          ((locate scope (anew (w.changedBy failed)).world).1 = .ok rs →
            d.resolver.Within (d.scope.NoParty scope) →
            t.world.registry.Within (d.scope.NoParty scope) →
            (anew (w.changedBy failed)).GoesOnAs t scope (d.scope.NoParty scope) (!·.asks)) ∧
          (locate scope t.world = locate d.scope t.world →
            (anew (s.after failed).world).GoesOnAs t scope (fun _ => True) fun _ => true)) ∧
    (∀ ops rs, let t := s.after ops
      t.isAttempt .next → (d.authority.entranceIn t.world).runs ≠ 0 →
      (locate d.scope (t.world.after d.authority.entry)).1 = .ok rs →
      ∀ more : List Operation, (∀ op ∈ more, op.isReload = false) →
        ∀ e ∈ t.next.trace more, e.asks = false) ∧
    (isQualifiedName d.capability.text = false → ∀ ops,
      (∀ e ∈ s.trace ops, e.asks = false) ∧
      (d.authority = .unrestricted → ∀ r : Round,
        (s.after (ops ++ r.operations)).answers =
          some (.error ⟨d.capability, .scope (.invalidIdentifier d.capability.text)⟩) ::
            List.replicate (r.rest.countP (·.isRequest)) none)) := by
  intro s locate
  have hkept : s.Kept := kept_of_fresh hfresh w
  refine ⟨fun ha rounds hfails => ⟨fun earlier r cause hrounds => ?_, ?_⟩, ?_,
    fun hname ops => ⟨asks_eq_false_of_not_isQualifiedName hkept hname ops, fun ha r => ?_⟩⟩
  · subst hrounds
    exact ⟨answers_of_fails hfresh ha hfails,
      (after_of_fails hfresh ha hfails (H := fun _ => False) nofun (.refl trivial)).1,
      asks_of_fails hfresh ha hfails nofun⟩
  · intro before hbefore scope rs
    exact goesOnAs_of_fails hfresh ha hfails hbefore scope
  · intro ops rs
    exact asks_eq_false_of_answer hfresh
  · have hafter := fresh_after_of_not_isQualifiedName hkept hfresh ha hname ops
    obtain ⟨i, c, hsetting⟩ := hkept.setting_after ops
    have hname' : isQualifiedName (s.after ops).discovery.capability.text = false := by
      rw [hsetting]
      exact hname
    obtain ⟨es, hround, -⟩ := after_round_of_unlocated (r := r) hafter (by rw [hsetting]; exact ha)
      (congrArg Prod.fst (Scope.run_locate_of_not_isQualifiedName hname' _ _))
    rw [after_append, hround, hsetting]
    rfl

/-- A scope that fails when it is asked first, and has two resources then. -/
def slowScope : Scope :=
  .party ⟨⟨9⟩, "slow", fun
    | 0, _ => .error (.unsupported "offline")
    | _ + 1, _ => .ok twoResources⟩

/-- A round of two requests. -/
def twoRequests : Round :=
  ⟨[.iterate], [.next], ⟨List.mem_cons_self, by simp [Operation.isIdle]⟩,
    by simp [Operation.keepsPass]⟩

/-- The first round fails. From then on `A` is made with the first call of a factory, as in a scope
that has the two resources at once, and the scope is not asked any more. -/
theorem Session.failed_enumeration_slowScope :
    let d : Discovery := .start ⟨"x.Codec"⟩ ⟨"Codec"⟩ slowScope .registry .unrestricted
    let w : World := .fresh ∅ mixedTypes
    let rounds : List (Round × ScopeError) := [(twoRequests, .unsupported "offline")]
    let failed := rounds.flatMap fun round => round.1.operations
    let t := (start d w).after (failed ++ [.iterate])
    let anew := (start (d.inScope twoScope) (w.changedBy failed)).after [.iterate]
    ((start d w).after failed).answers =
        [some (.error ⟨⟨"x.Codec"⟩, .scope (.unsupported "offline")⟩), none] ∧
      ((start d w).after failed).discovery = d ∧
      (t.after [.next, .next]).answers = [some (.ok ⟨"a", 1⟩),
        some (.error ⟨⟨"x.Codec"⟩, .instantiationFailed "B" "broken"⟩)] ∧
      (anew.after [.next, .next]).answers = (t.after [.next, .next]).answers ∧
      ∀ e ∈ t.next.trace [.iterate, .next, .next], e.asks = false := by
  intro d w rounds failed t anew
  have hname : isQualifiedName "x.Codec" := by decide +kernel
  have hfresh : d.Fresh := Discovery.fresh_start ..
  have hfails : (start d w).Fails rounds := ⟨Scope.run_locate_party _ hname _, trivial⟩
  have hcount : t.world.callCount ⟨9⟩ = 1 := by decide +kernel
  have hlocate : ((d.scope.locate d.capability).run.run t.world).1 = .ok twoResources :=
    (Scope.run_locate_party _ hname _).trans (by rw [hcount])
  obtain ⟨hretry, hunasked, -⟩ := failed_enumeration_costs_a_pass hfresh w
  obtain ⟨hrejected, hgoesOn⟩ := hretry rfl rounds hfails
  obtain ⟨hanswers, hkept, -⟩ := hrejected [] twoRequests (.unsupported "offline") rfl
  refine ⟨hanswers, hkept, ?_, ?_, ?_⟩
  · decide +kernel
  · have hbegin : Operation.BeginPass [.iterate] :=
      ⟨List.mem_cons_self, by simp [Operation.isIdle]⟩
    obtain ⟨es, hround, -⟩ := after_round_of_unlocated hfresh rfl hfails.1
    have hregistry : t.world.registry = mixedTypes := by
      rw [show t = _ from after_append .., show (start d w).after failed = _ from hround]
      rfl
    have hwithin : mixedTypes.Within (slowScope.NoParty twoScope) :=
      Registry.within_registerAll (by
        simp [Scope.NoParty, slowScope, twoScope, Scope.isParty_party_iff])
    rw [← hregistry] at hwithin
    obtain ⟨hgoes, -⟩ := hgoesOn [.iterate] hbegin twoScope twoResources hlocate
    have hresolver : d.resolver.Within (slowScope.NoParty twoScope) := fun p hp => by cases hp
    obtain ⟨-, -, hsame, -⟩ := hgoes (Scope.run_locate_party _ hname _) hresolver hwithin [.next]
      (by simp [Operation.isReload, Operation.Within])
    exact hsame
  · have hattempt : t.isAttempt .next := by decide +kernel
    have hruns : (d.authority.entranceIn t.world).runs ≠ 0 := Nat.one_ne_zero
    have hentry : t.world.after d.authority.entry = t.world := World.after_nil _
    exact hunasked (failed ++ [Operation.iterate]) twoResources hattempt hruns
      (by rw [hentry]; exact hlocate) [.iterate, .next, .next] (by simp [Operation.isReload])

end ProviderDiscovery
