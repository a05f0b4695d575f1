import ProviderDiscovery.Proofs.Candidates.Peeking
import ProviderDiscovery.Proofs.Discovery.Refusal
import ProviderDiscovery.Proofs.Discovery.Requests

/-!
# Discoveries with nothing left to find

When a search comes to an end without a failure, no resource is left unopened and no name is
pending: the candidates are `Exhausted`. Nothing but a reload changes such candidates, and a step
of their discovery finds nothing, whatever has become of the files and the scope. So once a pass
has ended without an error, all later passes recite the instances and do nothing else
(`Session.Recites`), until the discovery is reloaded.
-/

namespace ProviderDiscovery

/-! ### Steps of an exhausted discovery -/

namespace Discovery

variable {d d' : Discovery} {w w' : World}

/-- A step that ends without a provider has exhausted the candidates. -/
theorem exhausted_of_run_advance (hu : d.candidates.upcoming = none)
    (h : d.advance.run w = ((.ok none, d'), w')) : d'.candidates.Exhausted := by
  obtain ⟨answer, c, es, handed, hsearch, -⟩ := d.run_nextCandidate w hu
  rw [advance, Action.run_bind, hsearch] at h
  rcases answer with e | _ | candidate
  · cases h
  · obtain ⟨-, c₁, hc, hnext⟩ := permits_of_run_nextCandidate hsearch
    obtain ⟨hpair, -⟩ := Prod.mk.inj h
    obtain ⟨-, rfl⟩ := Prod.mk.inj hpair
    rw [hc]
    exact Candidates.exhausted_of_run_next hnext
  · simp only [Action.run_bind, run_record] at h
    generalize (acceptName _ candidate.name).run _ = accepted at h
    obtain ⟨⟨e | provider, d₁⟩, w₁⟩ := accepted <;> cases h

/-- A step of an exhausted discovery enters the authority and does nothing else. It fails only if
the authority does. -/
theorem run_advance_of_exhausted (h : d.candidates.Exhausted) (w : World) :
    ∃ answer, d.advance.run w = ((answer, d), w.after d.authority.entry) ∧
      ((d.authority.entranceIn w).Permits → answer = .ok none) ∧
      ∀ provider, answer ≠ .ok (some provider) := by
  by_cases hpermits : (d.authority.entranceIn w).Permits
  · have hsearch := run_nextCandidate_of_permits hpermits (h.run_next d.instances.contains _)
    exact ⟨.ok none, run_advance_of_none hsearch, fun _ => rfl, by simp⟩
  · have hfails : ∃ e, d.nextCandidate.run w = ((.error e, d), w.after d.authority.entry) := by
      by_cases hruns : (d.authority.entranceIn w).runs = 0
      · exact ⟨_, run_nextCandidate_of_runs_eq_zero hruns⟩
      · obtain ⟨reason, hreason⟩ : ∃ reason, (d.authority.entranceIn w).refusal = some reason :=
          Option.ne_none_iff_exists'.mp fun hnone => hpermits ⟨hruns, hnone⟩
        refine ⟨⟨d.capability, .privilegeDenied reason⟩, ?_⟩
        rw [nextCandidate, Action.run_bind, Authority.run_of_runs_ne_zero hruns,
          Authority.enter_eq_after_entry, h.run_next, Authority.release, hreason]
        rfl
    obtain ⟨e, hsearch⟩ := hfails
    exact ⟨.error e, run_advance_of_error hsearch, fun hp => absurd hp hpermits, by simp⟩

end Discovery

/-! ### Sessions that have finished -/

namespace Session

/-- The pass in hand has **finished**: it has answered `none`, and no error. -/
def Finished (s : Session) : Prop :=
  none ∈ s.answers ∧ ∀ e, some (.error e) ∉ s.answers

/-- What a session **settles**: when the pass in hand has ended, or has answered `none`, it has
failed or the candidates are exhausted. -/
def Settled (s : Session) : Prop :=
  (none ∈ s.answers ∨ ∃ p, s.pass = some p ∧ p.ended = true) →
    (∃ e, some (.error e) ∈ s.answers) ∨ s.discovery.candidates.Exhausted

variable {s : Session}

theorem settled_start (d : Discovery) (w : World) : (start d w).Settled := by
  rintro (hnone | ⟨p, hp, -⟩)
  · cases hnone
  · cases hp

/-- A step of the discovery settles, and so does a pass that is asked again. -/
theorem Settled.requested (h : s.Settled) (hu : s.discovery.candidates.upcoming = none)
    {t : Session} {es : List Event} (ht : s.Requested t es) : t.Settled := by
  have hkept : ∀ answers, (∃ e, some (.error e) ∈ s.answers) →
      ∃ e, some (Except.error e) ∈ s.answers ++ answers := fun answers ⟨e, he⟩ =>
    ⟨e, List.mem_append_left _ he⟩
  cases ht with
  | idle hp => exact h
  | ended hp hended => exact fun _ => (h (.inr ⟨_, hp, hended⟩)).imp_left (hkept _)
  | @replayed p slot hp hopen hslot =>
    intro hended
    refine (h (hended.imp (fun hnone => ?_) ?_)).imp_left (hkept _)
    · rcases List.mem_append.mp hnone with hnone | hnone
      · exact hnone
      · cases List.mem_singleton.mp hnone
    · rintro ⟨q, hq, hended⟩
      obtain rfl := Option.some.inj hq
      exact ⟨p, hp, hended⟩
  | @stepped p answer d es hp hopen hslot hrun =>
    intro hended
    rcases answer with e | _ | provider
    · exact .inl ⟨e, List.mem_append_right _ List.mem_cons_self⟩
    · exact .inr (Discovery.exhausted_of_run_advance hu hrun)
    · -- The pass is open, so it had answered `none` before, and is settled.
      have hnone : none ∈ s.answers := by
        rcases hended with hnone | ⟨q, hq, hended⟩
        · rcases List.mem_append.mp hnone with hnone | hnone
          · exact hnone
          · cases List.mem_singleton.mp hnone
        · obtain rfl := Option.some.inj hq
          exact absurd (hopen.symm.trans hended) Bool.false_ne_true
      rcases h (.inl hnone) with herror | hexhausted
      · exact .inl (hkept _ herror)
      · obtain ⟨answer', hrun', -, hnot⟩ :=
          Discovery.run_advance_of_exhausted hexhausted s.world
        rw [hrun] at hrun'
        exact absurd (Prod.mk.inj (Prod.mk.inj hrun').1).1.symm (hnot provider)

theorem Settled.step (h : s.Settled) (hk : s.Kept) (op : Operation) : (s.step op).Settled := by
  cases op with
  | iterate =>
    rintro (hnone | ⟨p, hp, hended⟩)
    · cases hnone
    · obtain rfl := Option.some.inj hp
      cases hended
  | next => exact h.requested hk.upcoming (requested_next hk.upcoming)
  | remove => exact h
  | reload =>
    rintro (hnone | ⟨p, hp, -⟩)
    · cases hnone
    · cases hp
  | meanwhile files registry others => exact h

theorem Settled.after (h : s.Settled) (hk : s.Kept) (ops : List Operation) :
    (s.after ops).Settled := by
  induction ops generalizing s with
  | nil => exact h
  | cons op rest ih => exact ih (h.step hk op) (hk.step op)

/-- A pass that has finished has exhausted the candidates. -/
theorem Settled.exhausted (h : s.Settled) (hfinished : s.Finished) :
    s.discovery.candidates.Exhausted :=
  (h (.inl hfinished.1)).resolve_left fun ⟨e, he⟩ => hfinished.2 e he

/-! ### Exhausted sessions -/

/-- An operation of an exhausted session, other than a reload, changes nothing in the discovery and
enters the authority at most. -/
theorem step_of_exhausted (h : s.discovery.candidates.Exhausted) {op : Operation}
    (hop : op.isReload = false) :
    (s.step op).discovery = s.discovery ∧ ∀ e ∈ s.done op, e ∈ s.discovery.authority.entry := by
  cases op with
  | next =>
    have hrequested : s.Requested (s.step .next) (s.done .next) := requested_next h.upcoming
    generalize s.step .next = t, s.done .next = es at hrequested ⊢
    cases hrequested with
    | stepped hp hopen hslot hrun =>
      obtain ⟨answer, hnothing, -⟩ := Discovery.run_advance_of_exhausted h s.world
      obtain ⟨hpair, hworld⟩ := Prod.mk.inj (hrun.symm.trans hnothing)
      exact ⟨(Prod.mk.inj hpair).2, fun e he => World.after_inj hworld ▸ he⟩
    | _ => exact ⟨rfl, by simp⟩
  | iterate => exact ⟨rfl, by simp [done]⟩
  | remove => exact ⟨rfl, by simp [done]⟩
  | reload => cases hop
  | meanwhile files registry others => exact ⟨rfl, by simp [done]⟩

/-- Neither does any run of operations without a reload. -/
theorem after_of_exhausted (h : s.discovery.candidates.Exhausted) {ops : List Operation}
    (hops : ∀ op ∈ ops, op.isReload = false) :
    (s.after ops).discovery = s.discovery ∧
      ∀ e ∈ s.trace ops, e ∈ s.discovery.authority.entry := by
  induction ops generalizing s with
  | nil => exact ⟨rfl, by simp [trace]⟩
  | cons op rest ih =>
    obtain ⟨hstep, hdone⟩ := step_of_exhausted h (hops op List.mem_cons_self)
    obtain ⟨hafter, htrace⟩ :=
      ih (hstep.symm ▸ h) fun op' hop' => hops op' (List.mem_cons_of_mem _ hop')
    rw [hstep] at htrace
    exact ⟨hafter.trans hstep, List.forall_mem_append.mpr ⟨hdone, htrace⟩⟩

/-- A pass **recites** the instances when the candidates are exhausted, and it has answered a number
of requests with the instances in order and then with `none`. -/
structure Recites (s : Session) (slots : List (String × Provider)) (n : Nat) : Prop where
  exhausted : s.discovery.candidates.Exhausted
  permits : s.discovery.authority.PermitsFrom s.world
  entries : s.discovery.instances.entries = slots
  answers : s.answers = (List.range n).map fun k => (replayed slots)[k]?
  pass : ∃ p, s.pass = some p ∧ (p.ended = false → p.position = n) ∧
    (p.ended = true → slots.length ≤ n)

namespace Recites

variable {slots : List (String × Provider)} {n : Nat}

/-- One more answer. -/
theorem answers_succ (h : s.Recites slots n) {answer : Option (Except DiscoveryError Provider)}
    (hanswer : answer = (replayed slots)[n]?) :
    s.answers ++ [answer] = (List.range (n + 1)).map fun k => (replayed slots)[k]? := by
  rw [List.range_succ, List.map_append, h.answers, hanswer]
  rfl

/-- Behind the instances the answer is `none`. -/
theorem getElem?_replayed_of_le (hn : slots.length ≤ n) : (replayed slots)[n]? = none :=
  List.getElem?_eq_none (by rwa [replayed, List.length_map])

/-- A request is answered by the next instance, or by `none`. -/
theorem next (h : s.Recites slots n) : s.next.Recites slots (n + 1) := by
  obtain ⟨p, hp, hposition, hlength⟩ := h.pass
  have hentries := h.entries
  have hrequested := requested_next h.exhausted.upcoming
  generalize s.next = t, s.done .next = es at hrequested ⊢
  cases hrequested with
  | idle hnone =>
    rw [hp] at hnone
    cases hnone
  | @ended q hq hended =>
    obtain rfl : q = p := Option.some.inj (hq.symm.trans hp)
    have hle := hlength hended
    exact ⟨h.exhausted, h.permits, hentries, h.answers_succ (getElem?_replayed_of_le hle).symm,
      q, hp, by simp [hended], fun _ => Nat.le_succ_of_le hle⟩
  | @replayed q slot hq hopen hslot =>
    obtain rfl : q = p := Option.some.inj (hq.symm.trans hp)
    rw [hentries, hposition hopen] at hslot
    refine ⟨h.exhausted, h.permits, hentries, h.answers_succ ?_, _, rfl,
      fun _ => congrArg (· + 1) (hposition hopen), by simp [hopen]⟩
    rw [ProviderDiscovery.replayed, List.getElem?_map, hslot]
    rfl
  | @stepped q answer d fs hq hopen hslot hrun =>
    obtain rfl : q = p := Option.some.inj (hq.symm.trans hp)
    rw [hentries, hposition hopen] at hslot
    have hle : slots.length ≤ n := List.getElem?_eq_none_iff.mp hslot
    obtain ⟨answer', hnothing, hpermitted, -⟩ :=
      Discovery.run_advance_of_exhausted h.exhausted s.world
    obtain ⟨hpair, hworld⟩ := Prod.mk.inj (hrun.symm.trans hnothing)
    obtain ⟨hanswer, rfl⟩ := Prod.mk.inj hpair
    rw [hpermitted h.permits.permits] at hanswer
    obtain rfl := hanswer
    exact ⟨h.exhausted, h.permits.after _, hentries,
      h.answers_succ (getElem?_replayed_of_le hle).symm, _, rfl, (fun hopen => by cases hopen),
      fun _ => Nat.le_succ_of_le hle⟩

/-- An operation that keeps the pass in hand keeps it reciting. -/
theorem step (h : s.Recites slots n) {op : Operation} (hop : op.keepsPass) :
    (s.step op).Recites slots (n + op.isRequest.toNat) := by
  cases op with
  | iterate => cases hop
  | next => exact h.next
  | remove => exact h
  | reload => cases hop
  | meanwhile files registry others =>
    exact ⟨h.exhausted, (h.permits.after others).changed files registry, h.entries, h.answers,
      h.pass⟩

/-- **A pass recites the instances**, whatever happens in between. -/
theorem after (h : s.Recites slots n) {ops : List Operation} (hops : ∀ op ∈ ops, op.keepsPass) :
    (s.after ops).Recites slots (n + ops.countP Operation.isRequest) := by
  induction ops generalizing s n with
  | nil => exact h
  | cons op rest ih =>
    have hstep := h.step (hops op List.mem_cons_self)
    have hafter := ih hstep fun op' hop' => hops op' (List.mem_cons_of_mem _ hop')
    have hcount : n + op.isRequest.toNat + rest.countP Operation.isRequest =
        n + (op :: rest).countP Operation.isRequest := by
      rw [List.countP_cons]
      cases op.isRequest with
      | false => simp
      | true => simp; omega
    rw [← hcount]
    exact hafter

end Recites

end Session

/-- **What has finished stays finished until a reload.** Let a pass have ended without an error,
whatever was done before and whatever the files, the factories and the authority did. Then no
operation but a reload changes the discovery any more, and whatever is done to the files, the types
and the scope meanwhile, nothing is asked, opened, looked up or made: at most the authority is
entered. If it permits all steps from now on, every later pass yields the instances in order and
then nothing. A reload makes the discovery fresh. -/
theorem Session.finished_until_reload (capability : CapabilityId) (contract : Contract)
    (scope : Scope) (resolver : Resolver) (authority : Authority) (w : World)
    (ops : List Operation) :
    let s := (start (.start capability contract scope resolver authority) w).after ops
    let slots := s.discovery.instances.entries
    s.Finished →
      (∀ more : List Operation, (∀ op ∈ more, op.isReload = false) →
        (s.after more).discovery = s.discovery ∧ ∀ e ∈ s.trace more, e ∈ authority.entry) ∧
      (authority.PermitsFrom s.world →
        ∀ before during : List Operation, (∀ op ∈ before, op.isReload = false) →
          (∀ op ∈ during, op.keepsPass) →
          (s.after (before ++ .iterate :: during)).answers =
            (List.range (during.countP Operation.isRequest)).map fun k =>
              (replayed slots)[k]?) ∧
      (s.step .reload).discovery.Fresh := by
  intro s slots hfinished
  have hstart := kept_start capability contract scope resolver authority w
  have hexhausted : s.discovery.candidates.Exhausted :=
    (((settled_start _ w).after hstart ops).exhausted hfinished)
  obtain ⟨i, c, hsetting⟩ := hstart.setting_after ops
  have hauthority : s.discovery.authority = authority := congrArg Discovery.authority hsetting
  refine ⟨fun more hmore => ?_, fun hpermits before during hbefore hduring => ?_,
    s.fresh_step_reload⟩
  · rw [← hauthority]
    exact after_of_exhausted hexhausted hmore
  · obtain ⟨hdiscovery, -⟩ := after_of_exhausted hexhausted hbefore
    have hrecites : ((s.after before).step .iterate).Recites slots 0 := by
      refine ⟨?_, ?_, ?_, rfl, .start, rfl, fun _ => rfl, nofun⟩
      · exact hdiscovery.symm ▸ hexhausted
      · change (s.after before).discovery.authority.PermitsFrom (s.after before).world
        rw [hdiscovery, hauthority]
        exact (hstart.after ops).permitsFrom_after hpermits before
      · exact congrArg (·.instances.entries) hdiscovery
    have hanswers := (hrecites.after hduring).answers
    rw [Nat.zero_add] at hanswers
    rw [after_append]
    exact hanswers

/-- Behind a pass that has made `A` and `B` nothing is known of types any more. The next pass yields
both all the same; only the authority is entered, at its end. -/
theorem Session.finished_twoNames :
    let s := (start (.start ⟨"x.Codec"⟩ ⟨"Codec"⟩ twoNames .registry (.capture insistent))
      (.fresh ∅ twoTypes)).after (Operation.pass 3)
    let more : List Operation := .meanwhile ∅ ∅ [] :: Operation.pass 3
    s.Finished ∧
      (s.after more).answers = [some (.ok ⟨"a", 1⟩), some (.ok ⟨"b", 2⟩), none] ∧
      ∀ e ∈ s.trace more, e = .entered ⟨9⟩ ⟨"owner", .other⟩ := by
  intro s more
  have hanswers : s.answers = [some (.ok ⟨"a", 1⟩), some (.ok ⟨"b", 2⟩), none] := by
    decide +kernel
  have hfinished : s.Finished := by
    rw [Finished, hanswers]
    exact ⟨by simp, by simp⟩
  have hpermits : (Authority.capture insistent).PermitsFrom s.world :=
    Authority.permitsFrom_held fun n _ => ⟨Nat.succ_ne_zero n, rfl⟩
  obtain ⟨hquiet, hrecited, -⟩ := finished_until_reload ⟨"x.Codec"⟩ ⟨"Codec"⟩ twoNames .registry
    (.capture insistent) (.fresh ∅ twoTypes) (Operation.pass 3) hfinished
  refine ⟨hfinished, ?_, fun e he => ?_⟩
  · refine (hrecited hpermits [.meanwhile ∅ ∅ []] (Operation.requests 3) (by decide)
      (by decide)).trans ?_
    decide +kernel
  · exact List.mem_singleton.mp ((hquiet more (by decide)).2 e he)

end ProviderDiscovery
