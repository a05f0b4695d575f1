import ProviderDiscovery.Proofs.Blind
import ProviderDiscovery.Proofs.Discovery.Session

/-!
# Sessions that go in step

Two discoveries that differ in their authorities only are run side by side. `Together` relates two
steps of which one is taken in each world: they answer alike and do the same, besides entrances of
the authority. Authorities go `InStep` when each blind step goes together under them. Then so do
all operations of a session, and two sessions that agree at first agree after any run.
-/

namespace ProviderDiscovery

/-! ### Steps side by side -/

/-- Steps go **together** along a relation of worlds when their answers are related, what they do
is the same besides entrances of an authority, and the worlds stay related. -/
def Together {α β : Type} (h : Handle) (R : World → World → Prop) (S : α → β → Prop)
    (x : Action α) (y : Action β) : Prop :=
  ∀ w w', R w w' → ∃ a b es es', x.run w = (a, w.after es) ∧ y.run w' = (b, w'.after es') ∧
    S a b ∧ besides h es = besides h es' ∧ R (w.after es) (w'.after es')

/-- A **likeness** of worlds but for an authority stays when files and types change in both, or
when the same is done in both. -/
structure Likeness (h : Handle) (R : World → World → Prop) : Prop where
  alike : ∀ {w w'}, R w w' → w.Alike h w'
  after : ∀ {w w'}, R w w' → ∀ es, R (w.after es) (w'.after es)
  changed : ∀ {w w'}, R w w' → ∀ files registry, registry.Avoids h →
    R { w with files := files, registry := registry }
      { w' with files := files, registry := registry }

namespace Together

variable {α β γ δ : Type} {h : Handle} {R : World → World → Prop} {S : α → β → Prop}
  {T : γ → δ → Prop} {x : Action α} {y : Action β}

protected theorem pure {a : α} {b : β} (hab : S a b) :
    Together h R S (pure a : Action α) (pure b : Action β) :=
  fun _ _ hw => ⟨a, b, [], [], rfl, rfl, hab, rfl, hw⟩

protected theorem bind {f : α → Action γ} {g : β → Action δ} (hxy : Together h R S x y)
    (hfg : ∀ a b, S a b → Together h R T (f a) (g b)) : Together h R T (x >>= f) (y >>= g) := by
  intro w w' hw
  obtain ⟨a, b, es, es', hx, hy, hab, hes, hw⟩ := hxy w w' hw
  obtain ⟨c, d, fs, fs', hf, hg, hcd, hfs, hw⟩ := hfg a b hab _ _ hw
  refine ⟨c, d, es ++ fs, es' ++ fs', ?_, ?_, hcd, ?_, ?_⟩
  · rw [Action.run_bind, hx, hf, World.after_after]
  · rw [Action.run_bind, hy, hg, World.after_after]
  · rw [besides_append, besides_append, hes, hfs]
  · rwa [World.after_after, World.after_after] at hw

/-- What is known of all answers of one step is known of its answer. -/
theorem and_of_answer {Q : α → Prop} (hxy : Together h R S x y) (hQ : ∀ w, Q (x.run w).1) :
    Together h R (fun a b => S a b ∧ Q a) x y := by
  intro w w' hw
  obtain ⟨a, b, es, es', hx, hy, hab, hes, hw⟩ := hxy w w' hw
  have ha : Q a := by
    have hanswer := hQ w
    rwa [hx] at hanswer
  exact ⟨a, b, es, es', hx, hy, ⟨hab, ha⟩, hes, hw⟩

/-- A blind step goes together with itself. -/
theorem of_blind (hR : Likeness h R) (hx : Blind h x) : Together h R Eq x x := by
  intro w w' hw
  obtain ⟨a, es, hrun, hrun', -⟩ := hx w w' (hR.alike hw)
  exact ⟨a, a, es, es, hrun, hrun', rfl, rfl, hR.after hw es⟩

end Together

/-! ### Authorities in step -/

/-- Authorities go **in step** along a likeness when each blind step on a state goes together under
both. -/
structure Authority.InStep (h : Handle) (a a' : Authority) (R : World → World → Prop) : Prop where
  likeness : Likeness h R
  run : ∀ {σ α : Type} (capability : CapabilityId) {step : σ → Action (α × σ)} {s : σ},
    Blind h (step s) → Together h R Eq (a.run capability step s) (a'.run capability step s)

/-- Authorities that do the same whenever they are entered go in step. -/
theorem Authority.InStep.of_entranceIn_eq {h : Handle} {a a' : Authority}
    {R : World → World → Prop} (hR : Likeness h R) (htoken : a.token? = a'.token?)
    (hentry : a.entry = a'.entry) (hsame : ∀ w w', R w w' → a.entranceIn w = a'.entranceIn w') :
    a.InStep h a' R where
  likeness := hR
  run := by
    intro σ α capability step s hblind w w' hw
    have hentrance := hsame w w' hw
    have hentered := hR.after hw a.entry
    by_cases hruns : (a.entranceIn w).runs = 0
    · have hrun := Authority.run_of_runs_eq_zero hruns capability step s
      have hrun' := Authority.run_of_runs_eq_zero (hentrance ▸ hruns) capability step s
      rw [enter_eq_after_entry] at hrun hrun'
      rw [← hentry] at hrun'
      refine ⟨_, _, _, _, hrun, hrun', ?_, rfl, hentered⟩
      rw [denial, denial, htoken, hentrance]
    · have hrun := Authority.run_of_runs_ne_zero hruns capability step s
      have hrun' := Authority.run_of_runs_ne_zero (hentrance ▸ hruns) capability step s
      rw [enter_eq_after_entry] at hrun hrun'
      rw [← hentry] at hrun'
      obtain ⟨⟨answer, s₁⟩, es, hstep, hstep', -⟩ := hblind _ _ (hR.alike hentered)
      rw [hstep, World.after_after] at hrun
      rw [hstep', World.after_after] at hrun'
      refine ⟨_, _, _, _, hrun, hrun', ?_, rfl, hR.after hw _⟩
      rw [release, release, hentrance]

/-- A step on a state, carried out or not, leaves it in a condition that it was in before and that
the step keeps. -/
theorem Authority.run_keeps {σ α : Type} {I : σ → Prop} (a : Authority) (capability : CapabilityId)
    {step : σ → Action (α × σ)} {s : σ} (hs : I s) (hstep : ∀ w, I ((step s).run w).1.2)
    (w : World) : I ((a.run capability step s).run w).1.2 := by
  by_cases hruns : (a.entranceIn w).runs = 0
  · rw [Authority.run_of_runs_eq_zero hruns]
    exact hs
  · rw [Authority.run_of_runs_ne_zero hruns]
    exact hstep _

/-! ### Discoveries in step -/

namespace Discovery

/-- The discovery under another authority. -/
def under (d : Discovery) (a : Authority) : Discovery := { d with authority := a }

/-- A discovery is **apart** from an authority when it calls other parties only. -/
structure Apart (d : Discovery) (h : Handle) : Prop where
  scope : d.scope.Avoids h
  resolver : d.resolver.Avoids h
  searched : d.candidates.scope = d.scope
  upcoming : d.candidates.upcoming = none

/-- Discoveries **beside** each other are one discovery under two authorities, and apart from
them. -/
def Beside (h : Handle) (a a' : Authority) (d₁ d₁' : Discovery) : Prop :=
  ∃ d : Discovery, d.Apart h ∧ d₁ = d.under a ∧ d₁' = d.under a'

variable {h : Handle} {a a' : Authority} {R : World → World → Prop} {d : Discovery}

theorem together_nextCandidate (hin : a.InStep h a' R) (hd : d.Apart h) :
    Together h R (fun x y => x.1 = y.1 ∧ Beside h a a' x.2 y.2)
      (d.under a).nextCandidate (d.under a').nextCandidate := by
  have hblind : Blind h (Candidates.next d.instances.contains d.candidates) :=
    Candidates.blind_next _ (hd.searched ▸ hd.scope)
  have hnext : ∀ w,
      let c : Candidates := ((Candidates.next d.instances.contains d.candidates).run w).1.2
      c.scope = d.scope ∧ c.upcoming = none := fun w => by
    obtain ⟨answer, c, es, hrun, -, -, hscope, hupcoming, -⟩ :=
      Candidates.run_next_frame d.instances.contains w hd.upcoming
    rw [hrun]
    exact ⟨hscope.trans hd.searched, hupcoming⟩
  have hkeeps := Authority.run_keeps
    (I := fun c : Candidates => c.scope = d.scope ∧ c.upcoming = none) a d.capability
    ⟨hd.searched, hd.upcoming⟩ hnext
  refine ((hin.run d.capability hblind).and_of_answer
    (Q := fun x => x.2.scope = d.scope ∧ x.2.upcoming = none) hkeeps).bind ?_
  rintro ⟨answer, c⟩ _ ⟨rfl, hscope, hupcoming⟩
  have hd' : Apart { d with candidates := c } h := ⟨hd.scope, hd.resolver, hscope, hupcoming⟩
  exact .pure ⟨rfl, _, hd', rfl, rfl⟩

theorem together_acceptName (hin : a.InStep h a' R) (hd : d.Apart h) (name : String) :
    Together h R (fun x y => x.1 = y.1 ∧ Beside h a a' x.2 y.2)
      ((d.under a).acceptName name) ((d.under a').acceptName name) := by
  have hblind : Blind h (accept d.resolver d.contract d.capability name d.instances) :=
    blind_accept hd.resolver _ _ _ _
  refine (hin.run d.capability hblind).bind ?_
  rintro ⟨answer, i⟩ _ rfl
  have hd' : Apart { d with instances := i } h :=
    ⟨hd.scope, hd.resolver, hd.searched, hd.upcoming⟩
  exact .pure ⟨rfl, _, hd', rfl, rfl⟩

/-- A **step of the discovery** goes together under authorities that go in step. -/
theorem together_advance (hin : a.InStep h a' R) (hd : d.Apart h) :
    Together h R (fun x y => x.1 = y.1 ∧ Beside h a a' x.2 y.2)
      (d.under a).advance (d.under a').advance := by
  refine (together_nextCandidate hin hd).bind ?_
  rintro ⟨answer, d₁⟩ ⟨_, d₁'⟩ ⟨rfl, hbeside⟩
  rcases answer with e | _ | candidate
  · exact .pure ⟨rfl, hbeside⟩
  · exact .pure ⟨rfl, hbeside⟩
  · obtain ⟨d₁, hd₁, rfl, rfl⟩ := hbeside
    refine (Together.of_blind hin.likeness (Blind.record rfl)).bind fun _ _ _ => ?_
    refine (together_acceptName hin hd₁ candidate.name).bind ?_
    rintro ⟨answer, d₂⟩ ⟨_, d₂'⟩ ⟨rfl, hbeside⟩
    exact .pure ⟨rfl, hbeside⟩

end Discovery

/-- A request to a pass goes together under authorities that go in step. -/
theorem Pass.together_next {h : Handle} {a a' : Authority} {R : World → World → Prop}
    {d : Discovery} (hin : a.InStep h a' R) (hd : d.Apart h) (p : Pass) :
    Together h R (fun x y => x.1 = y.1 ∧ x.2.1 = y.2.1 ∧ Discovery.Beside h a a' x.2.2 y.2.2)
      (p.next (d.under a)) (p.next (d.under a')) := by
  have hsame : (d.under a').instances.getIndex? p.position =
      (d.under a).instances.getIndex? p.position := rfl
  unfold Pass.next
  split
  · exact .pure ⟨rfl, rfl, d, hd, rfl, rfl⟩
  rw [hsame]
  split
  · exact .pure ⟨rfl, rfl, d, hd, rfl, rfl⟩
  refine (Discovery.together_advance hin hd).bind ?_
  rintro ⟨answer, _⟩ ⟨_, _⟩ ⟨rfl, d₁, hd₁, rfl, rfl⟩
  rcases answer with e | _ | provider <;> exact .pure ⟨rfl, rfl, d₁, hd₁, rfl, rfl⟩

/-! ### Sessions in step -/

/-- The types that come in meanwhile make their providers through other parties. -/
def Operation.Avoids (op : Operation) (h : Handle) : Prop :=
  match op with
  | .meanwhile _ registry _ => registry.Avoids h
  | _ => True

namespace Session

/-- What the discovery of a session does in one operation. -/
def done (s : Session) (op : Operation) : List Event :=
  match op with
  | .next => s.next.world.eventsSince s.world
  | _ => []

/-- What the discovery of a session does in a run of operations, reloads included. -/
def trace (s : Session) : List Operation → List Event
  | [] => []
  | op :: rest => s.done op ++ (s.step op).trace rest

theorem done_next_of_pass_eq_none {s : Session} (hp : s.pass = none) : s.done .next = [] := by
  rw [done, next_of_pass_eq_none hp]
  exact s.world.eventsSince_after []

theorem done_next_of_run {s : Session} {p p' : Pass} {d' : Discovery} {es : List Event}
    {answer : Option (Except DiscoveryError Provider)} (hp : s.pass = some p)
    (hrun : (p.next s.discovery).run s.world = ((answer, p', d'), s.world.after es)) :
    s.done .next = es := by
  rw [done, next_of_run hp hrun, World.eventsSince_after]

/-- Sessions **agree** but for their authorities when they have the same instances and candidates,
the pass in hand has given the same answers, and the same has been done besides entrances of the
authority. -/
structure Agree (h : Handle) (s s' : Session) : Prop where
  discovery : s'.discovery = s.discovery.under s'.discovery.authority
  pass : s.pass = s'.pass
  answers : s.answers = s'.answers
  events : besides h s.events = besides h s'.events

/-- Sessions go **in step** when they agree, and their discoveries and worlds stay beside each
other. -/
structure InStep (h : Handle) (a a' : Authority) (R : World → World → Prop) (s s' : Session) :
    Prop where
  beside : Discovery.Beside h a a' s.discovery s'.discovery
  world : R s.world s'.world
  pass : s.pass = s'.pass
  answers : s.answers = s'.answers
  events : besides h s.events = besides h s'.events

namespace InStep

variable {h : Handle} {a a' : Authority} {R : World → World → Prop} {s s' : Session}

theorem agree (hs : s.InStep h a a' R s') : s.Agree h s' where
  discovery := by
    obtain ⟨d, -, hd, hd'⟩ := hs.beside
    rw [hd, hd']
    rfl
  pass := hs.pass
  answers := hs.answers
  events := hs.events

/-- A request to the pass in hand keeps sessions in step. -/
theorem next (hs : s.InStep h a a' R s') (hin : a.InStep h a' R) :
    s.next.InStep h a a' R s'.next ∧ besides h (s.done .next) = besides h (s'.done .next) := by
  cases hp : s.pass with
  | none =>
    have hp' : s'.pass = none := hs.pass.symm.trans hp
    rw [next_of_pass_eq_none hp, next_of_pass_eq_none hp', done_next_of_pass_eq_none hp,
      done_next_of_pass_eq_none hp']
    exact ⟨hs, rfl⟩
  | some p =>
    have hp' : s'.pass = some p := hs.pass.symm.trans hp
    obtain ⟨d, hd, hdiscovery, hdiscovery'⟩ := hs.beside
    obtain ⟨⟨answer, p₁, d₁⟩, ⟨_, _, d₁'⟩, es, es', hrun, hrun', ⟨rfl, rfl, hbeside⟩, hes,
      hworld⟩ := Pass.together_next hin hd p s.world s'.world hs.world
    rw [← hdiscovery] at hrun
    rw [← hdiscovery'] at hrun'
    rw [next_of_run hp hrun, next_of_run hp' hrun', done_next_of_run hp hrun,
      done_next_of_run hp' hrun']
    refine ⟨⟨hbeside, hworld, rfl, ?_, ?_⟩, hes⟩
    · exact congrArg (· ++ [answer]) hs.answers
    · exact (besides_append ..).trans (by rw [hs.events, hes, ← besides_append])

/-- Each operation keeps sessions in step. -/
theorem step (hs : s.InStep h a a' R s') (hin : a.InStep h a' R) {op : Operation}
    (hop : op.Avoids h) :
    (s.step op).InStep h a a' R (s'.step op) ∧
      besides h (s.done op) = besides h (s'.done op) := by
  cases op with
  | iterate => exact ⟨⟨hs.beside, hs.world, rfl, rfl, hs.events⟩, rfl⟩
  | next => exact hs.next hin
  | remove => exact ⟨hs, rfl⟩
  | reload =>
    obtain ⟨d, hd, hdiscovery, hdiscovery'⟩ := hs.beside
    have hreload : d.reload.Apart h := ⟨hd.scope, hd.resolver, rfl, rfl⟩
    refine ⟨⟨⟨d.reload, hreload, ?_, ?_⟩, hs.world, rfl, rfl, rfl⟩, rfl⟩
    · exact congrArg Discovery.reload hdiscovery
    · exact congrArg Discovery.reload hdiscovery'
  | meanwhile files registry others =>
    exact ⟨⟨hs.beside, hin.likeness.changed (hin.likeness.after hs.world others) files registry hop,
      hs.pass, hs.answers, hs.events⟩, rfl⟩

/-- **Sessions in step stay in step** through any run of operations. -/
theorem after (hs : s.InStep h a a' R s') (hin : a.InStep h a' R) {ops : List Operation}
    (hops : ∀ op ∈ ops, op.Avoids h) :
    (s.after ops).InStep h a a' R (s'.after ops) ∧
      besides h (s.trace ops) = besides h (s'.trace ops) := by
  induction ops generalizing s s' with
  | nil => exact ⟨hs, rfl⟩
  | cons op rest ih =>
    obtain ⟨hstep, hdone⟩ := hs.step hin (hops op List.mem_cons_self)
    obtain ⟨hafter, htrace⟩ := ih hstep fun op' hop' => hops op' (List.mem_cons_of_mem _ hop')
    refine ⟨hafter, ?_⟩
    rw [trace, trace, besides_append, besides_append, hdone, htrace]

end InStep

end Session

end ProviderDiscovery
