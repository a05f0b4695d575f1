import ProviderDiscovery.Proofs.Discovery.Abreast
import ProviderDiscovery.Proofs.Discovery.Numbering

/-!
# Discoveries in one world

Any number of discoveries may go on in one world: they share its files, its types and the factories
of these, and take turns in any order. A `Company` is such a world with a session for each
discovery. The sessions do not interfere. Each turn keeps the session that takes it abreast of a
session that goes on alone, and does nothing to the others (`Company.toldReplies_eq`); and the
numbers of instances belong to one session each (`Company.Owned`), since whatever comes in with a
turn has a new number.
-/

namespace ProviderDiscovery

/-- A **company** of sessions in one world. What a session has kept of a world of its own is of no
account: when it takes a turn, it finds the world of the company. -/
structure Company (ι : Type) where
  /-- The world that they share. -/
  world : World
  /-- The sessions. -/
  member : ι → Session

/-- The session in another world. -/
def Session.inWorld (s : Session) (w : World) : Session := { s with world := w }

namespace Company

variable {ι : Type}

/-- A company of discoveries, at its start. -/
def start (discovery : ι → Discovery) (w : World) : Company ι :=
  ⟨w, fun i => .start (discovery i) w⟩

/-- A session of the company, in the world of the company. -/
def session (c : Company ι) (i : ι) : Session := (c.member i).inWorld c.world

variable [DecidableEq ι]

/-- The company after the **turn** of one session, in which it takes an operation. -/
def step (c : Company ι) (i : ι) (op : Operation) : Company ι :=
  ⟨((c.session i).step op).world, Function.update c.member i ((c.session i).step op)⟩

/-- The replies that one session gets in a run of turns. -/
def replies (c : Company ι) (i : ι) :
    List (ι × Operation) → List (Option (Except DiscoveryError Provider))
  | [] => []
  | (j, op) :: rest =>
    (if j = i then (c.session j).reply op else []) ++ (c.step j op).replies i rest

/-- The operations that one session takes in a run of turns. -/
def own (i : ι) (turns : List (ι × Operation)) : List Operation :=
  (turns.filter (·.1 = i)).map Prod.snd

theorem own_cons_self (i : ι) (op : Operation) (turns : List (ι × Operation)) :
    own i ((i, op) :: turns) = op :: own i turns := by
  simp [own]

theorem own_cons_of_ne {i j : ι} (hij : j ≠ i) (op : Operation) (turns : List (ι × Operation)) :
    own i ((j, op) :: turns) = own i turns := by
  simp [own, hij]

/-- After its turn a session is as it would be after the operation. -/
theorem session_step_self (c : Company ι) (i : ι) (op : Operation) :
    (c.step i op).session i = (c.session i).step op := by
  simp only [session, step, Function.update_self]
  rfl

/-- The turn of another session changes nothing but the world. -/
theorem session_step_of_ne (c : Company ι) {i j : ι} (hij : i ≠ j) (op : Operation) :
    (c.step j op).session i = (c.session i).inWorld ((c.session j).step op).world := by
  simp only [session, step, Function.update_of_ne hij]
  rfl

/-! ### What a session is told -/

/-- Each session of a company is told what a session abreast of it is told that takes the same
operations, whoever takes turns in between. -/
theorem toldReplies_eq {files : FileTree} {registry : Registry} (hregistry : registry.IsSteady)
    {turns : List (ι × Operation)} (hturns : ∀ turn ∈ turns, turn.2.Leaves files registry)
    {c : Company ι} {alone : ι → Session}
    (h : ∀ i, (c.session i).Abreast files registry (alone i)) (i : ι) :
    Session.toldReplies (c.replies i turns) =
      Session.toldReplies ((alone i).replies (own i turns)) := by
  -- The induction follows the turns: the session whose turn it is stays abreast of its own double.
  induction turns generalizing c alone with
  | nil => rfl
  | cons turn rest ih =>
    obtain ⟨j, op⟩ := turn
    obtain ⟨hop, hrest⟩ := List.forall_mem_cons.mp hturns
    obtain ⟨hstep, hreply⟩ := (h j).step hregistry hop
    have hnext : ∀ k, ((c.step j op).session k).Abreast files registry
        (Function.update alone j ((alone j).step op) k) := fun k => by
      by_cases hkj : k = j
      · subst hkj
        rw [session_step_self, Function.update_self]
        exact hstep
      · rw [session_step_of_ne c hkj, Function.update_of_ne hkj]
        exact ⟨(h k).discovery, (h k).pass, hstep.world, (h k).world'⟩
    have htail := ih hrest hnext
    by_cases hji : j = i
    · subst hji
      rw [Function.update_self] at htail
      rw [replies, if_pos rfl, own_cons_self, Session.replies, Session.toldReplies,
        Session.toldReplies, List.map_append, List.map_append]
      exact congr (congrArg _ hreply) htail
    · rw [Function.update_of_ne (Ne.symm hji)] at htail
      rw [replies, if_neg hji, own_cons_of_ne hji]
      exact htail

/-! ### Whose instances are whose -/

end Company

/-- A provider that is the reply to an operation is an instance from then on. -/
theorem Session.Kept.mem_entries_of_reply {s : Session} (h : s.Kept) {op : Operation}
    {provider : Provider} (hreply : some (.ok provider) ∈ s.reply op) :
    ∃ name, (name, provider) ∈ (s.step op).discovery.instances.entries := by
  cases op with
  | next =>
    rw [Session.step]
    cases hp : s.pass with
    | none =>
      rw [reply_next_of_pass_eq_none hp] at hreply
      cases hreply
    | some p =>
      obtain ⟨answer, p', d', es, hpassed, hnext⟩ := next_of_pass hp h.upcoming
      rw [reply, hnext, List.drop_left] at hreply
      rw [hnext]
      obtain rfl := List.mem_singleton.mp hreply
      cases hpassed with
      | replayed hopen hslot => exact ⟨_, List.mem_of_getElem? hslot⟩
      | provided hopen hslot hd =>
        obtain ⟨name, hmade⟩ := hd.provided provider rfl
        refine ⟨name, ?_⟩
        change _ ∈ d'.instances.entries
        rw [hd.entries, hmade]
        exact List.mem_append_right _ List.mem_cons_self
  | remove =>
    obtain ⟨p, -, hp⟩ := List.mem_map.mp hreply
    cases hp
  | iterate => cases hreply
  | reload => cases hreply
  | meanwhile files registry others => cases hreply

namespace Company

variable {ι : Type}

/-- The numbers of instances are **owned**: all calls of factories so far have an owner, and each
session holds instances of its own numbers only. -/
structure Owned (owner : Nat → ι) (c : Company ι) : Prop where
  kept : ∀ i, (c.session i).Kept
  instances : ∀ i, ∀ slot ∈ (c.session i).discovery.instances.entries,
    slot.2.serial ≤ c.world.constructed.length ∧ owner slot.2.serial = i

theorem owned_start (discovery : ι → Discovery) (w : World) (owner : Nat → ι)
    (hstart : ∀ i, (Session.start (discovery i) w).Kept)
    (hfresh : ∀ i, (discovery i).Fresh) : Owned owner (start discovery w) where
  kept := hstart
  instances := fun i slot hslot => by
    have hempty : ((start discovery w).session i).discovery.instances.entries = [] :=
      (hfresh i).entries
    rw [hempty] at hslot
    cases hslot

variable [DecidableEq ι]

/-- With a turn the new numbers get the session as their owner whose turn it is. -/
theorem Owned.step {owner : Nat → ι} {c : Company ι} (h : Owned owner c) (i : ι) (op : Operation) :
    ∃ owner', Owned owner' (c.step i op) ∧
      c.world.constructed.length ≤ (c.step i op).world.constructed.length ∧
      ∀ n ≤ c.world.constructed.length, owner' n = owner n := by
  have hgrows : c.world.constructed.length ≤ (c.step i op).world.constructed.length :=
    (h.kept i).constructed_le_step op
  let owner' : Nat → ι := fun n => if n ≤ c.world.constructed.length then owner n else i
  have hsame : ∀ n ≤ c.world.constructed.length, owner' n = owner n := fun n hn => if_pos hn
  refine ⟨owner', ⟨fun k => ?_, fun k slot hslot => ?_⟩, hgrows, hsame⟩
  · by_cases hki : k = i
    · rw [hki, session_step_self]
      exact (h.kept i).step op
    · rw [session_step_of_ne c hki]
      have hk := h.kept k
      exact ⟨hk.upcoming, hk.returned, hk.tried, hk.called, hk.made, hk.entries, hk.capability⟩
  · have hold : ∀ slot ∈ (c.session k).discovery.instances.entries,
        slot.2.serial ≤ (c.step i op).world.constructed.length ∧ owner' slot.2.serial = k :=
      fun slot hslot => by
        obtain ⟨hle, howner⟩ := h.instances k slot hslot
        exact ⟨hle.trans hgrows, (hsame _ hle).trans howner⟩
    by_cases hki : k = i
    · subst hki
      rw [session_step_self] at hslot
      rcases (h.kept k).numbered_step op slot hslot with hslot | ⟨hlt, hle⟩
      · exact hold slot hslot
      · exact ⟨hle, if_neg (Nat.not_le.mpr hlt)⟩
    · rw [session_step_of_ne c hki] at hslot
      exact hold slot hslot

/-- In a run of turns each session gets providers of its own numbers only. -/
theorem Owned.replies {owner : Nat → ι} {c : Company ι} (h : Owned owner c)
    (turns : List (ι × Operation)) :
    ∃ owner' : Nat → ι, (∀ n ≤ c.world.constructed.length, owner' n = owner n) ∧
      ∀ i provider, some (.ok provider) ∈ c.replies i turns → owner' provider.serial = i := by
  -- The induction follows the turns: what has an owner after a turn keeps it to the end.
  induction turns generalizing owner c with
  | nil => exact ⟨owner, fun _ _ => rfl, nofun⟩
  | cons turn rest ih =>
    obtain ⟨j, op⟩ := turn
    obtain ⟨owner₁, hstep, hgrows, hsame⟩ := h.step j op
    obtain ⟨owner', hsame', hrest⟩ := ih hstep
    refine ⟨owner', fun n hn => (hsame' n (hn.trans hgrows)).trans (hsame n hn),
      fun i provider hmem => ?_⟩
    rw [Company.replies] at hmem
    rcases List.mem_append.mp hmem with hreply | hreply
    · split at hreply
      · rename_i hji
        subst hji
        obtain ⟨name, hslot⟩ := (h.kept j).mem_entries_of_reply hreply
        rw [← session_step_self] at hslot
        obtain ⟨hle, howner⟩ := hstep.instances j _ hslot
        exact (hsame' _ hle).trans howner
      · cases hreply
    · exact hrest i provider hreply

/-- **Discoveries that share a scope and a registry do not interfere.** Let the scope answer the
same on every call, and let each factory end all of its calls alike. Any number of discoveries
without authority, of the same capability or of different ones, take turns in any order: they begin
passes and drop them, ask them for providers or to remove one, and are reloaded. Then each of them
is told, by its passes, what it is told when its own operations are taken alone in the world: the
same values of providers and the same errors. And no two of them ever get the same instance. -/
theorem no_interference {scope : Scope} {w : World} (hscope : scope.IsSteady w.files)
    (hregistry : w.registry.IsSteady) (capability : ι → CapabilityId) (contract : ι → Contract)
    (turns : List (ι × Operation)) (hturns : ∀ turn ∈ turns, turn.2.Leaves w.files w.registry) :
    let loader := fun i => Discovery.load (capability i) (contract i) scope
    let together := start loader w
    (∀ i, Session.toldReplies (together.replies i turns) =
        Session.toldReplies ((Session.start (loader i) w).replies (own i turns))) ∧
      ∀ i j, i ≠ j → ∀ p q, some (.ok p) ∈ together.replies i turns →
        some (.ok q) ∈ together.replies j turns → p.serial ≠ q.serial := by
  intro loader together
  have habreast : ∀ i, (together.session i).Abreast w.files w.registry
      (Session.start (loader i) w) := fun i =>
    ⟨Discovery.resembles_load hscope (capability i) (contract i), rfl, ⟨rfl, rfl⟩, ⟨rfl, rfl⟩⟩
  refine ⟨toldReplies_eq hregistry hturns habreast, fun i j hij p q hp hq hserial => ?_⟩
  have howned : Owned (fun _ => i) together :=
    owned_start loader w _ (fun _ => Session.kept_start ..) fun _ => Discovery.fresh_start ..
  obtain ⟨owner, -, hreplies⟩ := howned.replies turns
  have hi := hreplies i p hp
  rw [hserial, hreplies j q hq] at hi
  exact hij hi.symm

/-- Turns of two sessions. One of them is reloaded when the other is half way through the
resources. -/
def mixedTurns : List (Bool × Operation) :=
  [(true, .iterate), (false, .iterate), (true, .next), (false, .next), (false, .next),
    (true, .next), (true, .remove), (false, .reload), (true, .iterate), (false, .iterate),
    (true, .next), (false, .next), (true, .next)]

/-- Two discoveries of one capability each get an `A` of their own. The one that is reloaded gets
another, while the other one goes on behind the name that could not be made. -/
theorem no_interference_twoScope :
    let loader := fun _ : Bool => Discovery.load ⟨"x.Codec"⟩ ⟨"Codec"⟩ twoScope
    let together := start loader (.fresh ∅ mixedTypes)
    let broken : DiscoveryError := ⟨⟨"x.Codec"⟩, .instantiationFailed "B" "broken"⟩
    together.replies true mixedTurns = [some (.ok ⟨"a", 1⟩), some (.error broken),
        some (.error ⟨⟨"x.Codec"⟩, .notSupported "remove"⟩), some (.ok ⟨"a", 1⟩),
        some (.ok ⟨"c", 6⟩)] ∧
      together.replies false mixedTurns =
        [some (.ok ⟨"a", 2⟩), some (.error broken), some (.ok ⟨"a", 5⟩)] ∧
      Session.toldReplies (together.replies false mixedTurns) =
        Session.toldReplies ((Session.start (loader false) (.fresh ∅ mixedTypes)).replies
          (own false mixedTurns)) ∧
      (⟨"a", 1⟩ : Provider).serial ≠ (⟨"a", 5⟩ : Provider).serial := by
  intro loader together broken
  have hscope : twoScope.IsSteady (∅ : FileTree) := fun _ => ⟨.ok twoResources, fun _ _ => rfl⟩
  have hregistry : mixedTypes.IsSteady := Registry.isSteady_registerAll (by simp)
  have hreplies : together.replies true mixedTurns = [some (.ok ⟨"a", 1⟩), some (.error broken),
      some (.error ⟨⟨"x.Codec"⟩, .notSupported "remove"⟩), some (.ok ⟨"a", 1⟩),
      some (.ok ⟨"c", 6⟩)] := by decide +kernel
  have hreplies' : together.replies false mixedTurns =
      [some (.ok ⟨"a", 2⟩), some (.error broken), some (.ok ⟨"a", 5⟩)] := by decide +kernel
  obtain ⟨htold, hserials⟩ := no_interference (w := .fresh ∅ mixedTypes) hscope hregistry
    (fun _ : Bool => ⟨"x.Codec"⟩) (fun _ => ⟨"Codec"⟩) mixedTurns
    (by simp [mixedTurns, Operation.Leaves])
  refine ⟨hreplies, hreplies', htold false, hserials true false (by decide) _ _ ?_ ?_⟩
  · change _ ∈ together.replies true mixedTurns
    rw [hreplies]
    exact List.mem_cons_self
  · change _ ∈ together.replies false mixedTurns
    rw [hreplies']
    decide

end Company

end ProviderDiscovery
