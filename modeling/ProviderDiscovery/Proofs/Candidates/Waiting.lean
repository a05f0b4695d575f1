import ProviderDiscovery.Proofs.Candidates.Enumeration

/-!
# Candidates that wait

Whoever looks for candidates may peek before it takes: it asks whether there is another candidate
that it does not know, and takes it later. A candidate that a peek has found waits until somebody
takes it, whoever that is and whatever is known by then. So names are compared with what is known
when a candidate is looked for, and not again when it is handed out. `Enquiry.after` is the state
after any run of peeks and takes, each with its own known names, and
`Enquiry.taken_unknown_unless_waiting` says when a caller is handed a name that it knows.
-/

namespace ProviderDiscovery

/-! ### Runs of peeks and takes -/

/-- An **enquiry** for candidates: the candidates, as far as they have been looked at, and the world
that this goes on in. -/
structure Enquiry where
  /-- The candidates. -/
  candidates : Candidates
  /-- The world. -/
  world : World

/-- A **question** in an enquiry. -/
inductive Question where
  /-- Whether there is another candidate that the caller does not know. -/
  | peek (known : String → Bool)
  /-- What the next candidate is that the caller does not know. -/
  | take (known : String → Bool)
  /-- Whether a candidate can be removed. -/
  | remove
  /-- None, but something else happens: files change, and others do things. -/
  | meanwhile (files : FileTree) (others : List Event)

/-- Whether a question takes a candidate. -/
def Question.isTake : Question → Bool
  | .take _ => true
  | _ => false

namespace Enquiry

/-- An enquiry at its start. -/
def start (capability : CapabilityId) (scope : Scope) (w : World) : Enquiry :=
  ⟨.start capability scope, w⟩

/-- The answer to a peek. -/
def peeked (s : Enquiry) (known : String → Bool) : Except DiscoveryError Bool :=
  ((s.candidates.hasNext known).run s.world).1.1

/-- The answer to a take. -/
def taken (s : Enquiry) (known : String → Bool) : Except DiscoveryError (Option Candidate) :=
  ((s.candidates.next known).run s.world).1.1

/-- The enquiry after one question. A wish to remove a candidate is declined and changes nothing. -/
def step (s : Enquiry) : Question → Enquiry
  | .peek known =>
    let ((_, c), w) := (s.candidates.hasNext known).run s.world
    ⟨c, w⟩
  | .take known =>
    let ((_, c), w) := (s.candidates.next known).run s.world
    ⟨c, w⟩
  | .remove => s
  | .meanwhile files others => { s with world := { s.world.after others with files := files } }

/-- The enquiry **after** a run of questions. -/
def after (s : Enquiry) (qs : List Question) : Enquiry := qs.foldl step s

/-- A candidate **waits** when it has been found and not been handed out. -/
def Waits (s : Enquiry) (candidate : Candidate) : Prop := s.candidates.upcoming = some candidate

theorem after_cons (s : Enquiry) (q : Question) (qs : List Question) :
    s.after (q :: qs) = (s.step q).after qs := rfl

theorem after_concat (s : Enquiry) (qs : List Question) (q : Question) :
    s.after (qs ++ [q]) = (s.after qs).step q :=
  List.foldl_append

variable {s : Enquiry} {candidate : Candidate}

/-! ### A candidate that waits -/

/-- A peek sees that a candidate waits, and leaves everything as it is. -/
theorem run_hasNext_of_waits (h : s.Waits candidate) (known : String → Bool) :
    (s.candidates.hasNext known).run s.world = ((.ok true, s.candidates), s.world) := by
  have hupcoming : s.candidates.upcoming = some candidate := h
  rw [Candidates.hasNext, hupcoming]
  rfl

theorem step_peek_of_waits (h : s.Waits candidate) (known : String → Bool) :
    s.step (.peek known) = s := by
  rw [step, run_hasNext_of_waits h]

/-- Whoever takes gets the candidate that waits, whether it is known or not. -/
theorem taken_of_waits (h : s.Waits candidate) (known : String → Bool) :
    s.taken known = .ok (some candidate) := by
  have hupcoming : s.candidates.upcoming = some candidate := h
  rw [taken, Candidates.next, Action.run_bind, run_hasNext_of_waits h]
  simp only [hupcoming]
  rfl

/-! ### Looking for a candidate -/

/-- A search starts when no candidate waits. It leaves one waiting if and only if it answers that
there is one, and that candidate is not known. -/
theorem exists_run_hasNext (hu : s.candidates.upcoming = none) (known : String → Bool) :
    ∃ answer c w, (s.candidates.hasNext known).run s.world = ((answer, c), w) ∧
      (answer = .ok true ↔ c.upcoming.isSome) ∧
      ∀ candidate, c.upcoming = some candidate → known candidate.name = false := by
  cases hr : s.candidates.unopened s.world with
  | error cause =>
    cases hunread : s.candidates.unread with
    | some rs =>
      rw [Candidates.unopened, hunread] at hr
      cases hr
    | none =>
      obtain ⟨es, hlocate, -⟩ := Candidates.locate_of_unopened hunread hr
      refine ⟨_, _, _, Candidates.run_hasNext_of_unlocated known hu hunread hlocate, ?_, ?_⟩
      · simp [hu]
      · intro candidate hcandidate
        rw [hu] at hcandidate
        cases hcandidate
  | ok rs =>
    obtain ⟨c, es, hrun, -, hc⟩ := Candidates.takesHead_hasNext known hu hr
    refine ⟨_, c, _, hrun, ?_, ?_⟩
    · rw [hc.upcoming]
      rcases (s.candidates.ahead known s.world.files rs).head? with _ | _ | found
      · simp [Mention.answer, Except.map]
      · simp [Mention.answer, Except.map, Except.toOption]
      · simp [Mention.answer, Except.map, Except.toOption]
    · intro candidate hcandidate
      rw [hc.upcoming] at hcandidate
      obtain ⟨m, hm, hfound⟩ := Option.bind_eq_some_iff.mp hcandidate
      cases m with
      | error e => cases hfound
      | ok found =>
        obtain rfl : found = candidate := Option.some.inj hfound
        have hskip := skip_eq_false_of_mem_firstMentions (List.mem_of_head? hm)
        exact (Bool.or_eq_false_iff.mp hskip).1

/-- A candidate that waits behind a peek was not known to it, or had been waiting. -/
theorem unknown_of_waits_step_peek {known : String → Bool} (hu : s.candidates.upcoming = none)
    (h : (s.step (.peek known)).Waits candidate) : known candidate.name = false := by
  obtain ⟨answer, c, w, hrun, -, hunknown⟩ := exists_run_hasNext hu known
  rw [step, hrun] at h
  exact hunknown candidate h

/-- A peek answers that there is a candidate if and only if one waits then. -/
theorem peeked_eq_ok_true_iff (s : Enquiry) (known : String → Bool) :
    s.peeked known = .ok true ↔ ∃ candidate, (s.step (.peek known)).Waits candidate := by
  cases hu : s.candidates.upcoming with
  | some candidate =>
    have hwaits : s.Waits candidate := hu
    rw [step_peek_of_waits hwaits, peeked, run_hasNext_of_waits hwaits]
    exact iff_of_true rfl ⟨candidate, hwaits⟩
  | none =>
    obtain ⟨answer, c, w, hrun, hanswer, -⟩ := exists_run_hasNext hu known
    rw [peeked, step, hrun]
    exact hanswer.trans Option.isSome_iff_exists

/-- When no candidate waits, whoever takes gets one that it does not know. -/
theorem unknown_of_taken {known : String → Bool} (hu : s.candidates.upcoming = none)
    (h : s.taken known = .ok (some candidate)) : known candidate.name = false := by
  obtain ⟨answer, c, es, hrun, -, -, -, -, -, hskipped⟩ :=
    Candidates.run_next_frame known s.world hu
  rw [taken, hrun] at h
  obtain rfl : answer = .ok (some candidate) := h
  exact (Bool.or_eq_false_iff.mp (hskipped candidate.name rfl)).1

/-- No candidate waits when one has been taken. -/
theorem upcoming_step_take (s : Enquiry) (known : String → Bool) :
    (s.step (.take known)).candidates.upcoming = none := by
  cases hu : s.candidates.upcoming with
  | some candidate =>
    have hwaits : s.Waits candidate := hu
    rw [step, Candidates.next, Action.run_bind, run_hasNext_of_waits hwaits]
    simp only [hu]
    rfl
  | none =>
    obtain ⟨answer, c, es, hrun, -, -, -, hupcoming, -⟩ :=
      Candidates.run_next_frame known s.world hu
    rw [step, hrun]
    exact hupcoming

/-! ### Whole enquiries -/

/-- A candidate that waits behind a run of questions had been waiting before it, or a peek in the
run has found it; nothing has been taken since. -/
theorem waits_cases {qs : List Question} (h : (s.after qs).Waits candidate) :
    (s.Waits candidate ∧ ∀ q ∈ qs, q.isTake = false) ∨
      ∃ before known behind, qs = before ++ .peek known :: behind ∧
        (∀ q ∈ behind, q.isTake = false) ∧
        (s.after before).candidates.upcoming = none ∧ known candidate.name = false := by
  induction qs generalizing s with
  | nil => exact .inl ⟨h, nofun⟩
  | cons q rest ih =>
    rw [after_cons] at h
    rcases ih h with ⟨hwaits, hrest⟩ | ⟨before, known, behind, rfl, hbehind, hnone, hunknown⟩
    · -- The candidate waits behind the first question, and nothing has been taken since.
      cases q with
      | peek known =>
        cases hu : s.candidates.upcoming with
        | some found =>
          rw [step_peek_of_waits hu] at hwaits
          exact .inl ⟨hwaits, List.forall_mem_cons.mpr ⟨rfl, hrest⟩⟩
        | none =>
          exact .inr ⟨[], known, rest, rfl, hrest, hu, unknown_of_waits_step_peek hu hwaits⟩
      | take known =>
        rw [Waits, upcoming_step_take] at hwaits
        cases hwaits
      | remove => exact .inl ⟨hwaits, List.forall_mem_cons.mpr ⟨rfl, hrest⟩⟩
      | meanwhile files others => exact .inl ⟨hwaits, List.forall_mem_cons.mpr ⟨rfl, hrest⟩⟩
    · exact .inr ⟨q :: before, known, behind, rfl, hbehind, hnone, hunknown⟩

/-- **A caller is handed what it does not know, unless a candidate waits.** Take any run of peeks
and takes in any scope, each with known names of its own, whatever happens to the files meanwhile.
Whoever takes then gets a candidate that it does not know, or the one that waits; and the one that
waits is what everybody gets, known or not. It was found by a peek since which nothing has been
taken, and which did not know it. A peek that answers that there is a candidate leaves one to be
taken, which the caller does not know unless it had been waiting. So a caller that knows no more
than the peeks before it is never handed a name that it knows. -/
theorem taken_unknown_unless_waiting (capability : CapabilityId) (scope : Scope) (w : World)
    (qs : List Question) :
    let s := (start capability scope w).after qs
    (∀ known candidate, s.taken known = .ok (some candidate) →
        known candidate.name = false ∨ s.Waits candidate) ∧
      (∀ candidate, s.Waits candidate →
        (∀ known, s.peeked known = .ok true ∧ s.taken known = .ok (some candidate)) ∧
        ∃ before known behind, qs = before ++ .peek known :: behind ∧
          (∀ q ∈ behind, q.isTake = false) ∧
          ((start capability scope w).after before).candidates.upcoming = none ∧
          known candidate.name = false) ∧
      (∀ known, s.peeked known = .ok true →
        ∃ candidate, (s.step (.peek known)).taken known = .ok (some candidate) ∧
          (known candidate.name = false ∨ s.Waits candidate)) ∧
      ∀ known, (∀ earlier, .peek earlier ∈ qs → ∀ name, known name → earlier name) →
        ∀ candidate, s.taken known = .ok (some candidate) → known candidate.name = false := by
  intro s
  have htaken : ∀ known candidate, s.taken known = .ok (some candidate) →
      known candidate.name = false ∨ s.Waits candidate := by
    intro known candidate h
    cases hu : s.candidates.upcoming with
    | none => exact .inl (unknown_of_taken hu h)
    | some found =>
      rw [taken_of_waits hu] at h
      obtain rfl := Option.some.inj (Except.ok.inj h)
      exact .inr hu
  have hfound : ∀ candidate, s.Waits candidate →
      ∃ before known behind, qs = before ++ .peek known :: behind ∧
        (∀ q ∈ behind, q.isTake = false) ∧
        ((start capability scope w).after before).candidates.upcoming = none ∧
        known candidate.name = false := by
    intro candidate h
    rcases waits_cases h with ⟨hwaits, -⟩ | hpeek
    · cases hwaits
    · exact hpeek
  refine ⟨htaken, ?_, ?_, ?_⟩
  · intro candidate h
    refine ⟨fun known => ⟨?_, taken_of_waits h known⟩, hfound candidate h⟩
    rw [peeked, run_hasNext_of_waits h]
  · intro known h
    obtain ⟨candidate, hwaits⟩ := (peeked_eq_ok_true_iff s known).mp h
    refine ⟨candidate, taken_of_waits hwaits known, ?_⟩
    cases hu : s.candidates.upcoming with
    | none => exact .inl (unknown_of_waits_step_peek hu hwaits)
    | some found =>
      rw [step_peek_of_waits hu] at hwaits
      exact .inr hwaits
  · intro known hknown candidate h
    rcases htaken known candidate h with hunknown | hwaits
    · exact hunknown
    · obtain ⟨before, earlier, behind, hqs, -, -, hunknown⟩ := hfound candidate hwaits
      have hmem : Question.peek earlier ∈ qs := by
        rw [hqs]
        exact List.mem_append_right _ List.mem_cons_self
      cases hname : known candidate.name with
      | false => rfl
      | true =>
        have hearlier := hknown earlier hmem candidate.name hname
        exact absurd (hunknown.symm.trans hearlier) Bool.false_ne_true

/-- A caller that knows `A` is told that there is a candidate and is handed `A`, because a peek that
did not know it has found it before. Without that peek there is none. -/
theorem taken_known_oneName :
    let scope : Scope := .memory "m" ⟨[("x.Codec", ["A"])]⟩ none
    let s := start ⟨"x.Codec"⟩ scope (.fresh ∅ ∅)
    let known (name : String) := name == "A"
    let peekedAt := s.after [.peek fun _ => false]
    peekedAt.peeked known = .ok true ∧
      (peekedAt.step (.peek known)).taken known =
        .ok (some ⟨"A", ⟨"mem:m/META-INF/services/x.Codec#0"⟩⟩) ∧
      known "A" = true ∧ s.peeked known = .ok false ∧ s.taken known = .ok none :=
  ⟨rfl, rfl, rfl, rfl, rfl⟩

end Enquiry

end ProviderDiscovery
