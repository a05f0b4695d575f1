import ProviderDiscovery.Proofs.Discovery.Advance

/-!
# Sessions

A discovery is used in a **session**: passes are begun and dropped, they are asked for providers,
and everything that was found is forgotten again. In between files and types may change, and others
may call the same parties. `Session.after` is the session after any run of operations.

The invariant of a session is `Session.Kept`: the names that were taken up since the last reload are
among those that were handed out, no name was handed out twice, and the table of instances holds
what was made, in order.
-/

namespace ProviderDiscovery

/-! ### One request to a pass -/

/-- How a pass **answers** a request for its next provider. -/
inductive Passed (p : Pass) (d : Discovery) :
    Option (Except DiscoveryError Provider) → Pass → Discovery → List Event → Prop where
  /-- A pass that has ended stays ended. -/
  | ended (hp : p.ended = true) : Passed p d none p d []
  /-- An instance is replayed. -/
  | replayed {name : String} {provider : Provider} (hp : p.ended = false)
      (hslot : d.instances.entries[p.position]? = some (name, provider)) :
      Passed p d (some (.ok provider)) { p with position := p.position + 1 } d []
  /-- A new provider is made. -/
  | provided {provider : Provider} {d' : Discovery} {es : List Event} (hp : p.ended = false)
      (hslot : d.instances.entries[p.position]? = none)
      (hd : Discovery.Advanced d (.ok (some provider)) d' es) :
      Passed p d (some (.ok provider)) { p with position := d'.instances.size } d' es
  /-- No provider is left. -/
  | finished {d' : Discovery} {es : List Event} (hp : p.ended = false)
      (hslot : d.instances.entries[p.position]? = none)
      (hd : Discovery.Advanced d (.ok none) d' es) :
      Passed p d none { p with ended := true } d' es
  /-- The search or the acceptance fails. -/
  | failed {e : DiscoveryError} {d' : Discovery} {es : List Event} (hp : p.ended = false)
      (hslot : d.instances.entries[p.position]? = none)
      (hd : Discovery.Advanced d (.error e) d' es) :
      Passed p d (some (.error e)) { p with ended := true } d' es

/-- What a pass answers, and what it is from then on, when it has come to the end of the instances
and the discovery has taken a step. -/
def Pass.answered (p : Pass) (d : Discovery) :
    Except DiscoveryError (Option Provider) → Option (Except DiscoveryError Provider) × Pass
  | .ok (some provider) => (some (.ok provider), { p with position := d.instances.size })
  | .ok none => (none, { p with ended := true })
  | .error e => (some (.error e), { p with ended := true })

theorem Pass.run_next_of_ended {p : Pass} (hp : p.ended = true) (d : Discovery) (w : World) :
    (p.next d).run w = ((none, p, d), w) := by
  rw [next, if_pos hp]
  rfl

theorem Pass.run_next_of_slot {p : Pass} {d : Discovery} {slot : String × Provider}
    (hp : p.ended = false) (hslot : d.instances.entries[p.position]? = some slot) (w : World) :
    (p.next d).run w = ((some (.ok slot.2), { p with position := p.position + 1 }, d), w) := by
  obtain ⟨position, ended⟩ := p
  obtain rfl : ended = false := hp
  have hindex : d.instances.getIndex? position = some slot := hslot
  rw [next, if_neg Bool.false_ne_true, hindex]
  rfl

theorem Pass.run_next_of_advance {p : Pass} {d d' : Discovery} {w w' : World}
    {answer : Except DiscoveryError (Option Provider)} (hp : p.ended = false)
    (hslot : d.instances.entries[p.position]? = none)
    (hrun : d.advance.run w = ((answer, d'), w')) :
    (p.next d).run w =
      (((p.answered d' answer).1, (p.answered d' answer).2, d'), w') := by
  obtain ⟨position, ended⟩ := p
  obtain rfl : ended = false := hp
  have hindex : d.instances.getIndex? position = none := hslot
  rw [next, if_neg Bool.false_ne_true, hindex]
  simp only [Action.run_bind, hrun]
  rcases answer with e | (_ | provider) <;> rfl

/-- A request to a pass is answered in one of these ways. -/
theorem Pass.run_next (p : Pass) {d : Discovery} (w : World)
    (hu : d.candidates.upcoming = none) :
    ∃ answer p' d' es,
      (p.next d).run w = ((answer, p', d'), w.after es) ∧ Passed p d answer p' d' es := by
  cases hp : p.ended with
  | true => exact ⟨none, p, d, [], run_next_of_ended hp d w, .ended hp⟩
  | false =>
    cases hslot : d.instances.entries[p.position]? with
    | some slot => exact ⟨_, _, d, [], run_next_of_slot hp hslot w, .replayed hp hslot⟩
    | none =>
      obtain ⟨answer, d', es, hrun, hd⟩ := d.run_advance w hu
      refine ⟨_, _, d', es, run_next_of_advance hp hslot hrun, ?_⟩
      cases answer with
      | error e => exact .failed hp hslot hd
      | ok found =>
        cases found with
        | none => exact .finished hp hslot hd
        | some provider => exact .provided hp hslot hd

/-- Whatever the answer is, the discovery has taken a step. -/
theorem Passed.advanced {p p' : Pass} {d d' : Discovery}
    {answer : Option (Except DiscoveryError Provider)} {es : List Event}
    (h : Passed p d answer p' d' es) (hu : d.candidates.upcoming = none) :
    ∃ step, Discovery.Advanced d step d' es := by
  cases h with
  | ended hp => exact ⟨_, .refl hu⟩
  | replayed hp hslot => exact ⟨_, .refl hu⟩
  | provided hp hslot hd => exact ⟨_, hd⟩
  | finished hp hslot hd => exact ⟨_, hd⟩
  | failed hp hslot hd => exact ⟨_, hd⟩

/-! ### Runs of operations -/

/-- An **operation** in a session. -/
inductive Operation where
  /-- A pass is begun; the pass before is dropped. -/
  | iterate
  /-- The pass in hand is asked for its next provider. -/
  | next
  /-- The pass in hand is asked to remove a provider. -/
  | remove
  /-- Everything that was found is forgotten; the pass in hand is dropped. -/
  | reload
  /-- Something else happens: files and types change, and others do things. -/
  | meanwhile (files : FileTree) (registry : Registry) (others : List Event)

/-- Whether an operation is a reload. -/
def Operation.isReload : Operation → Bool
  | .reload => true
  | _ => false

/-- A **session** with a discovery. -/
structure Session where
  /-- The discovery. -/
  discovery : Discovery
  /-- The world that it goes on in. -/
  world : World
  /-- The pass in hand, if there is one. -/
  pass : Option Pass
  /-- The answers of the pass in hand, the earliest first. -/
  answers : List (Option (Except DiscoveryError Provider))
  /-- What the discovery has done since the last reload, the earliest first. -/
  events : List Event

namespace Session

/-- A session at its start. -/
def start (d : Discovery) (w : World) : Session := ⟨d, w, none, [], []⟩

/-- The session when the pass in hand has been asked for its next provider. -/
def next (s : Session) : Session :=
  match s.pass with
  | none => s
  | some p =>
    let ((answer, p, d), w) := (p.next s.discovery).run s.world
    ⟨d, w, some p, s.answers ++ [answer], s.events ++ w.eventsSince s.world⟩

/-- The session after one operation. A wish to remove a provider is declined and changes
nothing. -/
def step (s : Session) : Operation → Session
  | .iterate => { s with pass := some .start, answers := [] }
  | .next => s.next
  | .remove => s
  | .reload =>
    { s with discovery := s.discovery.reload, pass := none, answers := [], events := [] }
  | .meanwhile files registry others =>
    { s with world := { s.world.after others with files := files, registry := registry } }

/-- The session **after** a run of operations. -/
def after (s : Session) (ops : List Operation) : Session := ops.foldl step s

theorem after_append (s : Session) (ops more : List Operation) :
    s.after (ops ++ more) = (s.after ops).after more :=
  List.foldl_append

/-- Without a pass a request does nothing. -/
theorem next_of_pass_eq_none {s : Session} (hp : s.pass = none) : s.next = s := by
  rw [next, hp]

theorem next_of_run {s : Session} {p p' : Pass} {d' : Discovery} {es : List Event}
    {answer : Option (Except DiscoveryError Provider)} (hp : s.pass = some p)
    (hrun : (p.next s.discovery).run s.world = ((answer, p', d'), s.world.after es)) :
    s.next = ⟨d', s.world.after es, some p', s.answers ++ [answer], s.events ++ es⟩ := by
  simp only [next, hp, hrun, World.eventsSince_after]

/-- A request is answered by the pass in hand. -/
theorem next_of_pass {s : Session} {p : Pass} (hp : s.pass = some p)
    (hu : s.discovery.candidates.upcoming = none) :
    ∃ answer p' d' es, Passed p s.discovery answer p' d' es ∧
      s.next = ⟨d', s.world.after es, some p', s.answers ++ [answer], s.events ++ es⟩ := by
  obtain ⟨answer, p', d', es, hrun, hpassed⟩ := p.run_next s.world hu
  exact ⟨answer, p', d', es, hpassed, next_of_run hp hrun⟩

/-! ### Names are taken up once -/

/-- What a session **keeps** to between two reloads. -/
structure Kept (s : Session) : Prop where
  /-- No candidate waits to be handed out. -/
  upcoming : s.discovery.candidates.upcoming = none
  /-- No name has been handed out twice. -/
  returned : s.discovery.candidates.returned.Nodup
  /-- Only names that were handed out have been taken up. -/
  tried : (triedNames s.events).Sublist s.discovery.candidates.returned
  /-- Only factories for names that were taken up have been called. -/
  called : (calledNames s.events).Sublist (triedNames s.events)
  /-- Only factories that were called have made providers. -/
  made : ((madeProviders s.events).map Prod.fst).Sublist (calledNames s.events)
  /-- The instances are the providers that were made. -/
  entries : s.discovery.instances.entries = madeProviders s.events
  /-- Candidates of the capability of the discovery are looked for. -/
  capability : s.discovery.candidates.capability = s.discovery.capability

theorem kept_start (capability : CapabilityId) (contract : Contract) (scope : Scope)
    (resolver : Resolver) (authority : Authority) (w : World) :
    (start (.start capability contract scope resolver authority) w).Kept :=
  ⟨rfl, .nil, .slnil, .slnil, .slnil, rfl, rfl⟩

/-- The names of instances are among those that have been handed out, in the same order. -/
theorem Kept.entries_sublist {s : Session} (h : s.Kept) :
    (s.discovery.instances.entries.map Prod.fst).Sublist s.discovery.candidates.returned := by
  rw [h.entries]
  exact (h.made.trans h.called).trans h.tried

/-- A step of the discovery keeps to it. -/
theorem Kept.advanced {s : Session} (h : s.Kept) {d : Discovery} {es : List Event}
    {answer : Except DiscoveryError (Option Provider)}
    (hd : Discovery.Advanced s.discovery answer d es) (w : World) (pass : Option Pass)
    (answers : List (Option (Except DiscoveryError Provider))) :
    Kept ⟨d, w, pass, answers, s.events ++ es⟩ where
  upcoming := hd.upcoming
  returned := hd.nodup_returned h.returned
  tried := by
    obtain ⟨handed, hreturned, -, htried⟩ := hd.handed
    rw [triedNames_append, hreturned]
    exact h.tried.append htried
  called := by
    rw [calledNames_append, triedNames_append]
    exact h.called.append hd.called
  made := by
    rw [madeProviders_append, calledNames_append, List.map_append]
    exact h.made.append hd.made
  entries := by
    rw [madeProviders_append, hd.entries, h.entries]
  capability := by
    change d.candidates.capability = d.capability
    rw [hd.capability, h.capability, hd.setting]

/-- Every operation keeps to it. -/
theorem Kept.step {s : Session} (h : s.Kept) (op : Operation) : (s.step op).Kept := by
  cases op with
  | iterate =>
    exact ⟨h.upcoming, h.returned, h.tried, h.called, h.made, h.entries, h.capability⟩
  | next =>
    rw [Session.step]
    cases hp : s.pass with
    | none =>
      rw [next_of_pass_eq_none hp]
      exact h
    | some p =>
      obtain ⟨answer, p', d', es, hpassed, hnext⟩ := next_of_pass hp h.upcoming
      obtain ⟨answer', hd⟩ := hpassed.advanced h.upcoming
      rw [hnext]
      exact h.advanced hd _ _ _
  | remove => exact h
  | reload => exact ⟨rfl, .nil, .slnil, .slnil, .slnil, rfl, rfl⟩
  | meanwhile files registry others =>
    exact ⟨h.upcoming, h.returned, h.tried, h.called, h.made, h.entries, h.capability⟩

/-- Every run of operations keeps to it. -/
theorem Kept.after {s : Session} (h : s.Kept) (ops : List Operation) : (s.after ops).Kept := by
  induction ops generalizing s with
  | nil => exact h
  | cons op rest ih => exact ih (h.step op)

/-- Only the instances and the candidates of the discovery change in an operation. -/
theorem Kept.setting_step {s : Session} (h : s.Kept) (op : Operation) :
    ∃ i c, (s.step op).discovery = { s.discovery with instances := i, candidates := c } := by
  cases op with
  | next =>
    rw [Session.step]
    cases hp : s.pass with
    | none => exact ⟨_, _, by rw [next_of_pass_eq_none hp]⟩
    | some p =>
      obtain ⟨answer, p', d', es, hpassed, hnext⟩ := next_of_pass hp h.upcoming
      obtain ⟨answer', hd⟩ := hpassed.advanced h.upcoming
      rw [hnext]
      exact ⟨_, _, hd.setting⟩
  | iterate => exact ⟨_, _, rfl⟩
  | remove => exact ⟨_, _, rfl⟩
  | reload => exact ⟨_, _, rfl⟩
  | meanwhile files registry others => exact ⟨_, _, rfl⟩

theorem Kept.setting_after {s : Session} (h : s.Kept) (ops : List Operation) :
    ∃ i c, (s.after ops).discovery = { s.discovery with instances := i, candidates := c } := by
  induction ops generalizing s with
  | nil => exact ⟨_, _, rfl⟩
  | cons op rest ih =>
    obtain ⟨i, c, hstep⟩ := h.setting_step op
    obtain ⟨i', c', hafter⟩ := ih (h.step op)
    refine ⟨i', c', hafter.trans ?_⟩
    rw [hstep]

end Session

/-- **No name is tried twice, and no provider is lost.** Whatever is done in a session, and
whatever the files, the factories and the authority do meanwhile: since the last reload no name has
been taken up twice, no factory has been called twice for a name, and the instances are the
providers that were made, in the order of the calls. -/
theorem Session.tried_once_and_made_kept (capability : CapabilityId) (contract : Contract)
    (scope : Scope) (resolver : Resolver) (authority : Authority) (w : World)
    (ops : List Operation) :
    let s := (Session.start (.start capability contract scope resolver authority) w).after ops
    (triedNames s.events).Nodup ∧
      (calledNames s.events).Nodup ∧
      (calledNames s.events).Sublist (triedNames s.events) ∧
      ((madeProviders s.events).map Prod.fst).Sublist (calledNames s.events) ∧
      s.discovery.instances.entries = madeProviders s.events := by
  intro s
  have h : s.Kept := (Session.kept_start capability contract scope resolver authority w).after ops
  have htried : (triedNames s.events).Nodup := h.returned.sublist h.tried
  exact ⟨htried, htried.sublist h.called, h.called, h.made, h.entries⟩

end ProviderDiscovery
