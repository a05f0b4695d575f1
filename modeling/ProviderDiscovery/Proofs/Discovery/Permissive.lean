import ProviderDiscovery.Proofs.Discovery.InStep
import ProviderDiscovery.Proofs.Discovery.Replay

/-!
# Permissive authorities

An authority that always asks for the step and never refuses changes nothing: a session under it
goes in step with the same session without authority. It is entered once for each step of the
discovery that is attempted, and once more for each candidate that the step gets, and for nothing
else. `Session.entrances_trace` counts the entrances, and `Session.permissive_transparent` puts
both together.
-/

namespace ProviderDiscovery

/-- The entrances of an authority among events. -/
def entrances (h : Handle) (es : List Event) : List Event := es.filter (·.enters h)

theorem entrances_append (h : Handle) (es fs : List Event) :
    entrances h (es ++ fs) = entrances h es ++ entrances h fs :=
  List.filter_append ..

theorem entrances_eq_nil {h : Handle} {es : List Event} (hes : ∀ e ∈ es, e.enters h = false) :
    entrances h es = [] :=
  List.filter_eq_nil_iff.mpr fun e he => by rw [hes e he]; exact Bool.false_ne_true

theorem besides_eq_self {h : Handle} {es : List Event} (hes : entrances h es = []) :
    besides h es = es :=
  List.filter_eq_self.mpr fun e he => by
    have hfalse : ¬e.enters h := List.filter_eq_nil_iff.mp hes e he
    simpa using hfalse

namespace Authority

/-- The authority **permits** every step. -/
def Permits (a : Authority) : Prop := ∀ w, (a.entranceIn w).Permits

theorem permits_held {token : Token} {party : AuthorityParty}
    (hpermits : ∀ n, (party.entrance n).Permits) : (held token party).Permits :=
  fun w => hpermits (w.callCount party.handle)

theorem permits_unrestricted : unrestricted.Permits := fun _ => ⟨Nat.one_ne_zero, rfl⟩

end Authority

/-! ### Transparency -/

/-- A permissive authority goes in step with none. -/
theorem Authority.inStep_unrestricted {token : Token} {party : AuthorityParty}
    (hpermits : ∀ n, (party.entrance n).Permits) :
    (held token party).InStep party.handle .unrestricted (World.Alike party.handle) where
  likeness :=
    { alike := id
      after := fun hw es => hw.after rfl
      changed := fun hw files registry havoids => ⟨rfl, rfl, havoids, hw.history⟩ }
  run := by
    intro σ α capability step s hblind w w' hw
    have hentry : besides party.handle [.entered party.handle token] =
        besides party.handle [] := by simp [besides, Event.enters]
    have hentered : (w.after [.entered party.handle token]).Alike party.handle w' :=
      hw.after hentry
    obtain ⟨⟨answer, s₁⟩, es, hrun, hrun', -⟩ := hblind _ _ hentered
    refine ⟨(.ok answer, s₁), _, .entered party.handle token :: es, es, ?_, ?_, rfl, ?_, ?_⟩
    · rw [run_of_permits (permits_held hpermits w), entry, hrun, World.after_after]
      rfl
    · rw [run_unrestricted, hrun']
    · refine (besides_append party.handle [.entered party.handle token] es).trans ?_
      rw [hentry]
      rfl
    · have hafter := hentered.after (rfl : besides party.handle es = besides party.handle es)
      rwa [World.after_after] at hafter

/-! ### Counting entrances -/

namespace World

/-- A world beside itself, in which no type makes its providers through an authority. -/
def Same (h : Handle) (w w' : World) : Prop := w' = w ∧ w.registry.Avoids h

theorem likeness_same (h : Handle) : Likeness h (Same h) where
  alike := by
    rintro w _ ⟨rfl, havoids⟩
    exact .refl havoids
  after := by
    rintro w _ ⟨rfl, havoids⟩ es
    exact ⟨rfl, havoids⟩
  changed := by
    rintro w _ ⟨rfl, -⟩ files registry havoids
    exact ⟨rfl, havoids⟩

end World

/-- Every authority goes in step with itself. -/
theorem Authority.inStep_self (h : Handle) (a : Authority) : a.InStep h a (World.Same h) :=
  .of_entranceIn_eq (World.likeness_same h) rfl rfl fun w _ hw => by rw [hw.1]

/-- A step that does not see the authority is carried out behind one entrance. -/
theorem Authority.Permits.exists_run {a : Authority} (ha : a.Permits) {h : Handle} {σ α : Type}
    (capability : CapabilityId) {step : σ → Action (α × σ)} {s : σ} (hblind : Blind h (step s))
    {w : World} (hw : w.registry.Avoids h) :
    ∃ answer s₁ es, (a.run capability step s).run w = ((.ok answer, s₁), w.after (a.entry ++ es)) ∧
      (step s).run (w.after a.entry) = ((answer, s₁), (w.after a.entry).after es) ∧
      entrances h es = [] := by
  obtain ⟨⟨answer, s₁⟩, es, hrun, -, hes⟩ :=
    hblind (w.after a.entry) (w.after a.entry) (.refl hw)
  refine ⟨answer, s₁, es, ?_, hrun, entrances_eq_nil hes⟩
  rw [run_of_permits (ha w), hrun, World.after_after]

namespace Discovery

variable {h : Handle} {d : Discovery} {w : World}

/-- A permitted search enters the authority once and takes no name up. -/
theorem Apart.run_nextCandidate (hd : d.Apart h) (ha : d.authority.Permits)
    (hw : w.registry.Avoids h) :
    ∃ answer c es, d.nextCandidate.run w =
        ((answer, { d with candidates := c }), w.after (d.authority.entry ++ es)) ∧
      entrances h es = [] ∧ triedNames es = [] ∧ Apart { d with candidates := c } h := by
  obtain ⟨answer, c, es, hrun, hnext, hentrances⟩ := ha.exists_run d.capability
    (Candidates.blind_next d.instances.contains (hd.searched ▸ hd.scope)) hw
  obtain ⟨answer', c', fs, hframe, hsearch, -, hscope, hupcoming, -⟩ :=
    Candidates.run_next_frame d.instances.contains (w.after d.authority.entry) hd.upcoming
  rw [hnext] at hframe
  obtain ⟨hpair, hworld⟩ := Prod.mk.inj hframe
  obtain ⟨-, rfl⟩ := Prod.mk.inj hpair
  obtain rfl := World.after_inj hworld
  refine ⟨answer, c, es, ?_, hentrances, (unseen_of_isSearch hsearch).tried,
    hd.scope, hd.resolver, hscope.trans hd.searched, hupcoming⟩
  rw [nextCandidate, Action.run_bind, hrun]
  rfl

/-- A permitted acceptance enters the authority once and takes no further name up. -/
theorem Apart.run_acceptName (hd : d.Apart h) (ha : d.authority.Permits)
    (hw : w.registry.Avoids h) (name : String) :
    ∃ answer i es, (d.acceptName name).run w =
        ((answer, { d with instances := i }), w.after (d.authority.entry ++ es)) ∧
      entrances h es = [] ∧ triedNames es = [] := by
  obtain ⟨answer, i, es, hrun, haccept, hentrances⟩ := ha.exists_run d.capability
    (blind_accept hd.resolver d.contract d.capability name d.instances) hw
  obtain ⟨asked, calls, fs, hverdict, -, -, htried⟩ := run_accept d.resolver d.contract
    d.capability name d.instances (w.after d.authority.entry)
  rw [haccept] at hverdict
  obtain rfl := World.after_inj (congrArg Prod.snd hverdict)
  refine ⟨answer, i, es, ?_, hentrances, htried⟩
  rw [acceptName, Action.run_bind, hrun]
  rfl

/-- **A permitted step enters the authority once**, and once more if it gets a candidate. -/
theorem Apart.run_advance (hd : d.Apart h) (ha : d.authority.Permits)
    (hentry : ∀ e ∈ d.authority.entry, e.enters h) (hw : w.registry.Avoids h) :
    ∃ answer d' es, d.advance.run w = ((answer, d'), w.after es) ∧
      entrances h es =
        (List.replicate (1 + (triedNames es).length) d.authority.entry).flatten := by
  have hentrances : entrances h d.authority.entry = d.authority.entry :=
    List.filter_eq_self.mpr hentry
  have htried : triedNames d.authority.entry = [] := by
    cases d.authority <;> rfl
  obtain ⟨answer, c, es, hrun, hes, hes', hd'⟩ := hd.run_nextCandidate ha hw
  rcases answer with e | _ | candidate
  · refine ⟨_, _, _, run_advance_of_error hrun, ?_⟩
    rw [entrances_append, triedNames_append, hentrances, htried, hes, hes']
    simp
  · refine ⟨_, _, _, run_advance_of_none hrun, ?_⟩
    rw [entrances_append, triedNames_append, hentrances, htried, hes, hes']
    simp
  · obtain ⟨answer, i, fs, haccept, hfs, hfs'⟩ := hd'.run_acceptName
      (w := w.after (d.authority.entry ++ es ++ [.accepting candidate.name candidate.resource]))
      ha hw candidate.name
    refine ⟨_, _, _, run_advance_of_candidate hrun haccept, ?_⟩
    have htaken : ∀ gs, entrances h (.accepting candidate.name candidate.resource :: gs) =
          entrances h gs ∧
        triedNames (.accepting candidate.name candidate.resource :: gs) =
          candidate.name :: triedNames gs := fun _ => ⟨rfl, rfl⟩
    simp only [entrances_append, triedNames_append, htaken, hentrances, htried, hes, hes', hfs,
      hfs']
    simp

end Discovery

namespace Session

/-- Whether an operation makes the discovery take a step: it is a request to an open pass that has
come to the end of the instances. -/
def isAttempt (s : Session) (op : Operation) : Bool :=
  match op, s.pass with
  | .next, some p => !p.ended && (s.discovery.instances.getIndex? p.position).isNone
  | _, _ => false

/-- How many steps of the discovery are attempted in a run of operations. -/
def attempts (s : Session) : List Operation → Nat
  | [] => 0
  | op :: rest => (s.isAttempt op).toNat + (s.step op).attempts rest

/-- An operation that takes no step of the discovery does nothing. -/
theorem done_of_isAttempt_eq_false {s : Session} {op : Operation} (hop : s.isAttempt op = false) :
    s.done op = [] := by
  cases op with
  | next =>
    cases hp : s.pass with
    | none => exact done_next_of_pass_eq_none hp
    | some p =>
      cases hended : p.ended with
      | true => exact done_next_of_run hp (Pass.run_next_of_ended hended _ _)
      | false =>
        simp only [isAttempt, hp, hended, Bool.not_false, Bool.true_and,
          Option.isNone_eq_false_iff] at hop
        obtain ⟨slot, hslot⟩ := Option.isSome_iff_exists.mp hop
        exact done_next_of_run hp (Pass.run_next_of_slot hended hslot _)
  | _ => rfl

/-- An attempt is made for an open pass at the end of the instances. -/
theorem exists_pass_of_isAttempt {s : Session} (hs : s.isAttempt .next) :
    ∃ p, s.pass = some p ∧ p.ended = false ∧
      s.discovery.instances.entries[p.position]? = none := by
  cases hp : s.pass with
  | none => simp [isAttempt, hp] at hs
  | some p =>
    simp only [isAttempt, hp, Bool.and_eq_true, Bool.not_eq_true', Option.isNone_iff_eq_none]
      at hs
    exact ⟨p, rfl, hs⟩

/-- A request that makes the discovery take a step does what the step does. -/
theorem done_of_isAttempt {s : Session} {op : Operation} (hop : s.isAttempt op)
    {answer : Except DiscoveryError (Option Provider)} {d' : Discovery} {es : List Event}
    (hrun : s.discovery.advance.run s.world = ((answer, d'), s.world.after es)) :
    s.done op = es := by
  cases op with
  | next =>
    obtain ⟨p, hp, hopen, hslot⟩ := exists_pass_of_isAttempt hop
    exact done_next_of_run hp (Pass.run_next_of_advance hopen hslot hrun)
  | _ => cases hop

variable {h : Handle} {a : Authority} {s : Session}

/-- An operation under a permissive authority enters it once for the step that it takes and once
for the candidate that the step gets. -/
theorem entrances_done (hs : s.InStep h a a (World.Same h) s) (ha : a.Permits)
    (hentry : ∀ e ∈ a.entry, e.enters h) (op : Operation) :
    entrances h (s.done op) = (List.replicate
      ((s.isAttempt op).toNat + (triedNames (s.done op)).length) a.entry).flatten := by
  cases hop : s.isAttempt op with
  | false =>
    rw [done_of_isAttempt_eq_false hop]
    rfl
  | true =>
    obtain ⟨d, hd, hdiscovery, -⟩ := hs.beside
    have hunder : (d.under a).Apart h := ⟨hd.scope, hd.resolver, hd.searched, hd.upcoming⟩
    obtain ⟨answer, d', es, hrun, hes⟩ := hunder.run_advance ha hentry hs.world.2
    rw [← hdiscovery] at hrun
    rw [done_of_isAttempt hop hrun]
    exact hes

/-- **Entrances are counted** by the steps that are attempted and the names that are taken up. -/
theorem entrances_trace (hs : s.InStep h a a (World.Same h) s) (ha : a.Permits)
    (hentry : ∀ e ∈ a.entry, e.enters h) {ops : List Operation}
    (hops : ∀ op ∈ ops, op.Avoids h) :
    entrances h (s.trace ops) =
      (List.replicate (s.attempts ops + (triedNames (s.trace ops)).length) a.entry).flatten := by
  induction ops generalizing s with
  | nil => rfl
  | cons op rest ih =>
    obtain ⟨hstep, -⟩ := hs.step (a.inStep_self h) (hops op List.mem_cons_self)
    have hrest := ih hstep fun op' hop' => hops op' (List.mem_cons_of_mem _ hop')
    have hcount : s.attempts (op :: rest) + (triedNames (s.trace (op :: rest))).length =
        ((s.isAttempt op).toNat + (triedNames (s.done op)).length) +
          ((s.step op).attempts rest + (triedNames ((s.step op).trace rest)).length) := by
      rw [attempts, trace, triedNames_append, List.length_append]
      omega
    rw [hcount, ← List.replicate_append_replicate, List.flatten_append, ← hrest,
      ← entrances_done hs ha hentry op, ← entrances_append, trace]

/-- A session at its start goes in step with the same session under another authority. -/
theorem inStep_start {a' : Authority} {R : World → World → Prop} {scope : Scope}
    {resolver : Resolver} (hscope : scope.Avoids h) (hresolver : resolver.Avoids h)
    {w : World} (hw : R w w) (capability : CapabilityId) (contract : Contract) :
    (start (.start capability contract scope resolver a) w).InStep h a a' R
      (start (.start capability contract scope resolver a') w) where
  beside := ⟨.start capability contract scope resolver a, ⟨hscope, hresolver, rfl, rfl⟩, rfl, rfl⟩
  world := hw
  pass := rfl
  answers := rfl
  events := rfl

end Session

/-- **A permissive authority is transparent and is asked for every step.** Let a party be captured
whose entrances all ask for the step and never refuse, and let it be none of the parties that the
discovery calls. After any operations the session agrees with the one without authority: the pass
in hand has given the same answers, the instances and the candidates are the same, and the same has
been done besides the entrances, calls of factories included. The party has been entered once for
each step that was attempted and once for each candidate that was obtained, with the captured token
each time; and an operation that takes no step does nothing at all. -/
theorem Session.permissive_transparent {party : AuthorityParty} {token : Token}
    (htoken : party.token = some token) (hpermits : ∀ n, (party.entrance n).Permits)
    {scope : Scope} {resolver : Resolver} {w : World} (hscope : scope.Avoids party.handle)
    (hresolver : resolver.Avoids party.handle) (hregistry : w.registry.Avoids party.handle)
    (capability : CapabilityId) (contract : Contract) {ops : List Operation}
    (hops : ∀ op ∈ ops, op.Avoids party.handle) :
    let held := start (.start capability contract scope resolver (.capture party)) w
    let free := start (.start capability contract scope resolver .unrestricted) w
    (held.after ops).Agree party.handle (free.after ops) ∧
      besides party.handle (held.trace ops) = free.trace ops ∧
      entrances party.handle (held.trace ops) =
        List.replicate (held.attempts ops + (triedNames (held.trace ops)).length)
          (.entered party.handle token) ∧
      ∀ op, (held.after ops).isAttempt op = false → (held.after ops).done op = [] := by
  intro held free
  have hheld : held = start (.start capability contract scope resolver (.held token party)) w := by
    rw [← show Authority.capture party = .held token party by rw [Authority.capture, htoken]]
  have hpermitted : (Authority.held token party).Permits := Authority.permits_held hpermits
  obtain ⟨hafter, htrace⟩ := (inStep_start hscope hresolver (World.Alike.refl hregistry) capability
    contract).after (Authority.inStep_unrestricted hpermits) hops
  have hentered := entrances_trace (a := .held token party)
    (inStep_start hscope hresolver ⟨rfl, hregistry⟩ capability contract) hpermitted
    (by simp [Authority.entry, Event.enters]) hops
  have hunentered := entrances_trace (h := party.handle) (a := .unrestricted)
    (inStep_start hscope hresolver ⟨rfl, hregistry⟩ capability contract)
    Authority.permits_unrestricted (List.forall_mem_nil _) hops
  rw [hheld]
  refine ⟨hafter.agree, htrace.trans ?_, hentered.trans ?_, fun op => done_of_isAttempt_eq_false⟩
  · refine besides_eq_self (hunentered.trans ?_)
    rw [Authority.entry, List.flatten_replicate_nil]
  · rw [Authority.entry, List.flatten_replicate_singleton]

/-- A party that asks once for its first step, twice for its second, and so on. -/
def insistent : AuthorityParty := ⟨⟨9⟩, some ⟨"owner", .other⟩, fun n => ⟨n + 1, none⟩⟩

/-- Types avoid an authority when none of the factories that are listed is the authority. -/
theorem Registry.avoids_of_entries {r : Registry} {h : Handle}
    (hr : ∀ e ∈ r.entries, ∀ b ∈ e.2.bindings, b.2.handle ≠ h) : r.Avoids h :=
  fun _ _ ht _ _ hfactory =>
    forall_factory (P := fun factory => factory.handle ≠ h) hr ht hfactory

/-- Two passes, the first of which goes to the end, and a third one after a reload: five steps are
attempted and three names are taken up, so the party is entered eight times. -/
theorem Session.permissive_twoNames :
    let ops : List Operation :=
      [.iterate, .next, .next, .next, .iterate, .next, .next, .next, .reload, .iterate, .next]
    let s := start (.start ⟨"x.Codec"⟩ ⟨"Codec"⟩ twoNames .registry (.capture insistent))
      (.fresh ∅ twoTypes)
    (s.after ops).answers = [some (.ok ⟨"a", 3⟩)] ∧
      entrances ⟨9⟩ (s.trace ops) = List.replicate 8 (.entered ⟨9⟩ ⟨"owner", .other⟩) := by
  intro ops s
  have hscope : twoNames.Avoids insistent.handle := by
    intro p _ _ hp
    simp [twoNames, Scope.leaves, Scope.parentLeaves] at hp
  have hregistry : (World.fresh ∅ twoTypes).registry.Avoids insistent.handle :=
    Registry.avoids_of_entries (by decide)
  have hops : ∀ op ∈ ops, op.Avoids insistent.handle := by simp [ops, Operation.Avoids]
  have htoken : insistent.token = some ⟨"owner", .other⟩ := rfl
  have hresolver : Resolver.registry.Avoids insistent.handle := fun p hp => by cases hp
  obtain ⟨hagree, -, hentrances, -⟩ := permissive_transparent htoken
    (fun n => ⟨Nat.succ_ne_zero n, rfl⟩) hscope hresolver hregistry ⟨"x.Codec"⟩ ⟨"Codec"⟩ hops
  refine ⟨hagree.answers.trans (by decide +kernel), hentrances.trans ?_⟩
  decide +kernel

end ProviderDiscovery
