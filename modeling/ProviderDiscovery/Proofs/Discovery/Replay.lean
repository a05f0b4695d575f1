import Mathlib.Control.Monad.Basic
import ProviderDiscovery.Proofs.Discovery.Session

/-!
# Replay

A pass goes over the slots of the table of instances, and the table only grows between two reloads.
So a provider that a pass has yielded at some place is yielded there by every later pass. What
makes this work is that a pass that is still open has taken one step for each of its requests, even
where a step failed and the table grew all the same: `Pass.Follows` says that its position is the
number of its answers, and that a pass that has ended has seen every slot.
-/

namespace ProviderDiscovery

/-- The provider in an answer of a pass. -/
def yielded? : Option (Except DiscoveryError Provider) → Option Provider
  | some (.ok provider) => some provider
  | _ => none

/-- The answer that yields the instance in a slot of the table. -/
def slotAnswer (slot : String × Provider) : Option (Except DiscoveryError Provider) :=
  some (.ok slot.2)

/-- At most one provider is made in a step. -/
theorem Discovery.Advanced.length_madeProviders_le {d d' : Discovery}
    {answer : Except DiscoveryError (Option Provider)} {es : List Event}
    (h : Advanced d answer d' es) : (madeProviders es).length ≤ 1 := by
  obtain ⟨handed, -, -, htried⟩ := h.handed
  calc (madeProviders es).length = ((madeProviders es).map Prod.fst).length := by simp
    _ ≤ (calledNames es).length := h.made.length_le
    _ ≤ (triedNames es).length := h.called.length_le
    _ ≤ handed.toList.length := htried.length_le
    _ ≤ 1 := by cases handed <;> simp

/-! ### A pass follows the table -/

/-- A pass **follows** a table of instances with its answers: they yield the slots up to its
position, and no further provider. -/
structure Pass.Follows (p : Pass) (entries : List (String × Provider))
    (answers : List (Option (Except DiscoveryError Provider))) : Prop where
  /-- The position is within the table. -/
  position_le : p.position ≤ entries.length
  /-- An open pass has answered once for each slot up to its position. -/
  position_eq : p.ended = false → p.position = answers.length
  /-- A pass that has ended has answered as often as there are slots. -/
  length_le : p.ended = true → entries.length ≤ answers.length
  /-- The answers yield the slots, and then no provider. -/
  answers_eq : ∃ rest, answers = (entries.take p.position).map slotAnswer ++ rest ∧
    ∀ a ∈ rest, yielded? a = none

namespace Pass.Follows

variable {p p' : Pass} {entries : List (String × Provider)} {d d' : Discovery}
  {answer : Option (Except DiscoveryError Provider)} {es : List Event}
  {answers : List (Option (Except DiscoveryError Provider))}

/-- A pass that is begun has answered nothing. -/
theorem start (entries : List (String × Provider)) : Pass.start.Follows entries [] :=
  ⟨Nat.zero_le _, fun _ => rfl, nofun, [], rfl, by simp⟩

/-- An open pass has yielded the slots up to its position and answered nothing else. -/
theorem answers_eq_of_open (h : p.Follows entries answers) (hp : p.ended = false) :
    answers = (entries.take p.position).map slotAnswer := by
  obtain ⟨rest, hanswers, -⟩ := h.answers_eq
  have hlength := congrArg List.length hanswers
  rw [List.length_append, List.length_map, List.length_take, ← h.position_eq hp,
    Nat.min_eq_left h.position_le] at hlength
  have hrest : rest = [] := List.eq_nil_of_length_eq_zero (by omega)
  rw [hanswers, hrest, List.append_nil]

/-- An open pass without a slot at its position has come to the end of the table. -/
theorem position_eq_length (h : p.Follows entries answers) (hslot : entries[p.position]? = none) :
    p.position = entries.length :=
  Nat.le_antisymm h.position_le (List.getElem?_eq_none_iff.mp hslot)

/-- A pass that ends with an answer has come to the end of the table, even if the table has grown
in its last step. -/
theorem passed_of_ended (h : p.Follows entries answers) (hp : p.ended = false)
    (hslot : entries[p.position]? = none) {made : List (String × Provider)}
    (hmade : made.length ≤ 1) (hanswer : yielded? answer = none) :
    Pass.Follows { p with ended := true } (entries ++ made) (answers ++ [answer]) where
  position_le := by
    rw [List.length_append]
    exact Nat.le_add_right_of_le h.position_le
  position_eq := nofun
  length_le := by
    intro _
    have hposition := h.position_eq_length hslot
    have hlength := h.position_eq hp
    rw [List.length_append, List.length_append, List.length_singleton]
    omega
  answers_eq := by
    refine ⟨[answer], ?_, by simpa using hanswer⟩
    rw [List.take_append_of_le_length h.position_le, ← h.answers_eq_of_open hp]

/-- A request to a pass leaves it following the table. -/
theorem passed (h : p.Follows d.instances.entries answers) (hpassed : Passed p d answer p' d' es) :
    p'.Follows d'.instances.entries (answers ++ [answer]) := by
  cases hpassed with
  | ended hp =>
    obtain ⟨rest, hanswers, hrest⟩ := h.answers_eq
    refine ⟨h.position_le, fun hopen => ?_, fun _ => ?_, rest ++ [none], ?_, ?_⟩
    · rw [hp] at hopen
      cases hopen
    · rw [List.length_append]
      exact Nat.le_add_right_of_le (h.length_le hp)
    · rw [hanswers, List.append_assoc]
    · intro a ha
      rcases List.mem_append.mp ha with ha | ha
      · exact hrest a ha
      · rw [List.mem_singleton.mp ha]
        rfl
  | @replayed name provider hp hslot =>
    obtain ⟨hlt, hget⟩ := List.getElem?_eq_some_iff.mp hslot
    refine ⟨hlt, fun _ => ?_, fun hended => ?_, [], ?_, by simp⟩
    · rw [List.length_append, List.length_singleton, ← h.position_eq hp]
    · rw [hp] at hended
      cases hended
    · rw [List.append_nil, ← List.take_append_getElem hlt, hget, List.map_append,
        ← h.answers_eq_of_open hp]
      rfl
  | @provided provider _ _ hp hslot hd =>
    obtain ⟨name, hmade⟩ := hd.provided provider rfl
    have hentries := hd.entries
    rw [hmade] at hentries
    have hposition := h.position_eq_length hslot
    refine ⟨Nat.le_refl _, fun _ => ?_, fun hended => ?_, [], ?_, by simp⟩
    · change d'.instances.entries.length = _
      rw [hentries, List.length_append, List.length_append, ← h.position_eq hp, hposition]
      rfl
    · rw [hp] at hended
      cases hended
    · have hanswers := h.answers_eq_of_open hp
      rw [hposition, List.take_length] at hanswers
      change _ = (d'.instances.entries.take d'.instances.entries.length).map slotAnswer ++ []
      rw [List.take_length, List.append_nil, hentries, List.map_append, ← hanswers]
      rfl
  | finished hp hslot hd =>
    rw [hd.entries]
    exact h.passed_of_ended hp hslot hd.length_madeProviders_le rfl
  | failed hp hslot hd =>
    rw [hd.entries]
    exact h.passed_of_ended hp hslot hd.length_madeProviders_le rfl

/-- As long as there are slots that it has not answered for, a pass yields the next one. -/
theorem answer_eq_of_slot (h : p.Follows d.instances.entries answers)
    (hpassed : Passed p d answer p' d' es) {slot : String × Provider}
    (hslot : d.instances.entries[answers.length]? = some slot) : answer = slotAnswer slot := by
  obtain ⟨hlt, -⟩ := List.getElem?_eq_some_iff.mp hslot
  have hp : p.ended = false := by
    cases hended : p.ended with
    | true =>
      have hle := h.length_le hended
      omega
    | false => rfl
  rw [← h.position_eq hp] at hslot
  cases hpassed with
  | ended hended =>
    rw [hp] at hended
    cases hended
  | replayed _ hreplayed =>
    rw [hslot] at hreplayed
    rw [Option.some.inj hreplayed]
    rfl
  | provided _ hnone _ =>
    rw [hslot] at hnone
    cases hnone
  | finished _ hnone _ =>
    rw [hslot] at hnone
    cases hnone
  | failed _ hnone _ =>
    rw [hslot] at hnone
    cases hnone

/-- A provider that has been yielded is in the slot of the same place. -/
theorem slot_of_answer (h : p.Follows entries answers) {i : Nat} {provider : Provider}
    (hi : answers[i]? = some (some (.ok provider))) :
    ∃ name, entries[i]? = some (name, provider) := by
  obtain ⟨rest, hanswers, hrest⟩ := h.answers_eq
  rw [hanswers] at hi
  rcases Nat.lt_or_ge i ((entries.take p.position).map slotAnswer).length with hlt | hge
  · rw [List.getElem?_append_left hlt, List.getElem?_map, List.getElem?_take] at hi
    rw [List.length_map, List.length_take] at hlt
    rw [if_pos (by omega)] at hi
    obtain ⟨⟨name, slot⟩, hslot, hanswer⟩ := Option.map_eq_some_iff.mp hi
    obtain rfl : slot = provider := Except.ok.inj (Option.some.inj hanswer)
    exact ⟨name, hslot⟩
  · rw [List.getElem?_append_right hge] at hi
    have hnone := hrest _ (List.mem_of_getElem? hi)
    cases hnone

/-- The providers that have been yielded are the first ones of the table, in order. -/
theorem filterMap_yielded?_prefix (h : p.Follows entries answers) :
    answers.filterMap yielded? <+: entries.map Prod.snd := by
  obtain ⟨rest, hanswers, hrest⟩ := h.answers_eq
  have hslots : ∀ slots : List (String × Provider),
      (slots.map slotAnswer).filterMap yielded? = slots.map Prod.snd := fun slots => by
    rw [List.filterMap_map, ← List.filterMap_eq_map]
    rfl
  have hnone : rest.filterMap yielded? = [] := List.filterMap_eq_nil_iff.mpr hrest
  rw [hanswers, List.filterMap_append, hslots, hnone, List.append_nil, List.map_take]
  exact List.take_prefix ..

end Pass.Follows

/-! ### Sessions replay -/

namespace Session

/-- The pass in hand follows the table of instances; without a pass there are no answers. -/
def Replays (s : Session) : Prop :=
  match s.pass with
  | none => s.answers = []
  | some p => p.Follows s.discovery.instances.entries s.answers

theorem replays_start (d : Discovery) (w : World) : (start d w).Replays := rfl

/-- Every operation leaves the pass in hand following the table. -/
theorem Replays.step {s : Session} (h : s.Replays) (hk : s.Kept) (op : Operation) :
    (s.step op).Replays := by
  cases op with
  | iterate => exact Pass.Follows.start _
  | next =>
    rw [Session.step]
    cases hp : s.pass with
    | none =>
      rw [next_of_pass_eq_none hp]
      exact h
    | some p =>
      rw [Replays, hp] at h
      obtain ⟨answer, p', d', es, hpassed, hnext⟩ := next_of_pass hp hk.upcoming
      rw [hnext]
      exact h.passed hpassed
  | remove => exact h
  | reload => exact rfl
  | meanwhile files registry others => exact h

theorem Replays.after {s : Session} (h : s.Replays) (hk : s.Kept) (ops : List Operation) :
    (s.after ops).Replays := by
  induction ops generalizing s with
  | nil => exact h
  | cons op rest ih => exact ih (h.step hk op) (hk.step op)

/-- The table only grows until the next reload. -/
theorem entries_prefix_step {s : Session} (hk : s.Kept) {op : Operation}
    (hop : op.isReload = false) :
    s.discovery.instances.entries <+: (s.step op).discovery.instances.entries := by
  cases op with
  | iterate => exact List.prefix_rfl
  | next =>
    rw [Session.step]
    cases hp : s.pass with
    | none => exact ⟨[], by rw [next_of_pass_eq_none hp, List.append_nil]⟩
    | some p =>
      obtain ⟨answer, p', d', es, hpassed, hnext⟩ := next_of_pass hp hk.upcoming
      obtain ⟨answer', hd⟩ := hpassed.advanced hk.upcoming
      rw [hnext]
      exact ⟨madeProviders es, hd.entries.symm⟩
  | remove => exact List.prefix_rfl
  | reload => cases hop
  | meanwhile files registry others => exact List.prefix_rfl

theorem entries_prefix_after {s : Session} (hk : s.Kept) {ops : List Operation}
    (hops : ∀ op ∈ ops, op.isReload = false) :
    s.discovery.instances.entries <+: (s.after ops).discovery.instances.entries := by
  induction ops generalizing s with
  | nil => exact List.prefix_rfl
  | cons op rest ih =>
    have hstep := entries_prefix_step hk (hops op List.mem_cons_self)
    exact hstep.trans (ih (hk.step op) fun op' hop' => hops op' (List.mem_cons_of_mem _ hop'))

/-- A session **yields** a provider in a place if the table holds it there and the pass in hand, if
it has got that far, has yielded it there. -/
structure Yields (s : Session) (i : Nat) (provider : Provider) : Prop where
  slot : ∃ name, s.discovery.instances.entries[i]? = some (name, provider)
  answer : i < s.answers.length → s.answers[i]? = some (some (.ok provider))

/-- A session goes on yielding a provider in its place until the next reload. -/
theorem Yields.step {s : Session} {i : Nat} {provider : Provider} (h : s.Yields i provider)
    (hk : s.Kept) (hr : s.Replays) {op : Operation} (hop : op.isReload = false) :
    (s.step op).Yields i provider := by
  obtain ⟨grown, hgrown⟩ := entries_prefix_step hk hop
  obtain ⟨name, hslot⟩ := h.slot
  obtain ⟨hlt, -⟩ := List.getElem?_eq_some_iff.mp hslot
  refine ⟨⟨name, ?_⟩, ?_⟩
  · rw [← hgrown, List.getElem?_append_left hlt, hslot]
  cases op with
  | iterate => exact fun hi => absurd hi (Nat.not_lt_zero i)
  | next =>
    rw [Session.step]
    cases hp : s.pass with
    | none =>
      rw [next_of_pass_eq_none hp]
      exact h.answer
    | some p =>
      rw [Replays, hp] at hr
      obtain ⟨answer, p', d', es, hpassed, hnext⟩ := next_of_pass hp hk.upcoming
      rw [hnext]
      intro hi
      change i < (s.answers ++ [answer]).length at hi
      change (s.answers ++ [answer])[i]? = some (some (.ok provider))
      rw [List.length_append, List.length_singleton] at hi
      rcases Nat.lt_or_ge i s.answers.length with hlt | hge
      · rw [List.getElem?_append_left hlt]
        exact h.answer hlt
      · -- The place is the one that is being answered for.
        obtain rfl : i = s.answers.length := by omega
        rw [hr.answer_eq_of_slot hpassed hslot, List.getElem?_concat_length]
        rfl
  | remove => exact h.answer
  | reload => cases hop
  | meanwhile files registry others => exact h.answer

theorem Yields.after {s : Session} {i : Nat} {provider : Provider} (h : s.Yields i provider)
    (hk : s.Kept) (hr : s.Replays) {ops : List Operation}
    (hops : ∀ op ∈ ops, op.isReload = false) : (s.after ops).Yields i provider := by
  induction ops generalizing s with
  | nil => exact h
  | cons op rest ih =>
    have hstep := h.step hk hr (hops op List.mem_cons_self)
    exact ih hstep (hk.step op) (hr.step hk op) fun op' hop' =>
      hops op' (List.mem_cons_of_mem _ hop')

/-- A pass does not skip the slot that it comes to. -/
theorem answers_next_of_slot {s : Session} (hk : s.Kept) (hr : s.Replays) (hpass : s.pass.isSome)
    {slot : String × Provider}
    (hslot : s.discovery.instances.entries[s.answers.length]? = some slot) :
    s.next.answers = s.answers ++ [slotAnswer slot] := by
  obtain ⟨p, hp⟩ := Option.isSome_iff_exists.mp hpass
  rw [Replays, hp] at hr
  obtain ⟨answer, p', d', es, hpassed, hnext⟩ := next_of_pass hp hk.upcoming
  rw [hnext, hr.answer_eq_of_slot hpassed hslot]

end Session

/-- **Replay is stable.** Whatever is done in a session, and whatever the files, the factories and
the authority do meanwhile: a provider that the pass in hand has yielded in some place is in that
slot of the table, the providers that it has yielded are the first slots in order, and it does not
skip a slot that it comes to. Until the next reload the table only grows, and every pass that gets
to a place in which a provider was yielded yields that provider there. -/
theorem Session.replay_stable (capability : CapabilityId) (contract : Contract) (scope : Scope)
    (resolver : Resolver) (authority : Authority) (w : World) (ops : List Operation) :
    let s := (Session.start (.start capability contract scope resolver authority) w).after ops
    let entries := s.discovery.instances.entries
    (∀ (i : Nat) (provider : Provider), s.answers[i]? = some (some (.ok provider)) →
        ∃ name, entries[i]? = some (name, provider)) ∧
      s.answers.filterMap yielded? <+: entries.map Prod.snd ∧
      (s.pass.isSome → ∀ slot, entries[s.answers.length]? = some slot →
        s.next.answers = s.answers ++ [slotAnswer slot]) ∧
      ∀ more : List Operation, (∀ op ∈ more, op.isReload = false) →
        entries <+: (s.after more).discovery.instances.entries ∧
          ∀ (i : Nat) (provider : Provider), s.answers[i]? = some (some (.ok provider)) →
            i < (s.after more).answers.length →
              (s.after more).answers[i]? = some (some (.ok provider)) := by
  intro s entries
  have hstart := Session.kept_start capability contract scope resolver authority w
  have hk : s.Kept := hstart.after ops
  have hr : s.Replays := (Session.replays_start _ w).after hstart ops
  have hslots : ∀ (i : Nat) (provider : Provider), s.answers[i]? = some (some (.ok provider)) →
      ∃ name, entries[i]? = some (name, provider) := fun i provider hi => by
    rw [Session.Replays] at hr
    split at hr
    · rw [hr] at hi
      cases hi
    · exact hr.slot_of_answer hi
  refine ⟨hslots, ?_, fun hpass slot hslot => Session.answers_next_of_slot hk hr hpass hslot,
    fun more hmore => ⟨Session.entries_prefix_after hk hmore, fun i provider hi hlt => ?_⟩⟩
  · rw [Session.Replays] at hr
    split at hr
    · rw [hr]
      exact List.nil_prefix
    · exact hr.filterMap_yielded?_prefix
  · have hyields : s.Yields i provider := ⟨hslots i provider hi, fun _ => hi⟩
    exact (hyields.after hk hr hmore).answer hlt

/-- A party that withholds the answer of its fourth step, after the step has been taken. -/
def withholding : AuthorityParty :=
  ⟨⟨0⟩, some ⟨"owner", .other⟩, fun n => ⟨1, if n = 3 then some "withheld" else none⟩⟩

/-- A scope in memory in which `A` and `B` are listed. -/
def twoNames : Scope := .memory "m" ⟨[("x.Codec", ["A\nB"])]⟩ none

/-- A registry that can make an `A` and a `B`. -/
def twoTypes : Registry :=
  Registry.registerAll ∅ [
    ⟨"A", [(⟨"Codec"⟩, ⟨⟨1⟩, "a", fun _ => .made⟩)]⟩,
    ⟨"B", [(⟨"Codec"⟩, ⟨⟨2⟩, "b", fun _ => .made⟩)]⟩]

/-- The second provider is withheld after it has been made. It is kept all the same, and a later
pass, which gets it, has yielded the first one in its place again. -/
theorem Session.replay_withheld :
    let s := (Session.start (.start ⟨"x.Codec"⟩ ⟨"Codec"⟩ twoNames .registry
      (.capture withholding))
      (.fresh ∅ twoTypes)).after [.iterate, .next, .next]
    let more : List Operation := [.iterate, .next, .next]
    s.answers = [some (.ok ⟨"a", 1⟩),
        some (.error ⟨⟨"x.Codec"⟩, .privilegeDenied "withheld"⟩)] ∧
      s.discovery.instances.entries = [("A", ⟨"a", 1⟩), ("B", ⟨"b", 2⟩)] ∧
      (s.after more).answers[0]? = some (some (.ok ⟨"a", 1⟩)) ∧
      (s.after more).answers[1]? = some (some (.ok ⟨"b", 2⟩)) := by
  refine ⟨by decide +kernel, by decide +kernel, ?_, by decide +kernel⟩
  have hstable := Session.replay_stable ⟨"x.Codec"⟩ ⟨"Codec"⟩ twoNames .registry
    (.capture withholding) (.fresh ∅ twoTypes) [.iterate, .next, .next]
  exact (hstable.2.2.2 [.iterate, .next, .next] (by decide)).2 0 ⟨"a", 1⟩ (by decide +kernel)
    (by decide +kernel)

end ProviderDiscovery
