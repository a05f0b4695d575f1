import ProviderDiscovery.Proofs.Candidates.Waiting

/-!
# Peeks

A peek does what a take does, up to handing the candidate out. So a peek that succeeds can be
repeated, or followed by a take with the same known names, and nothing shows that it was there; and
one that fails is a take that fails. `Enquiry.delivered` lists what a run of questions delivers, and
`Enquiry.withoutPeeks` is the run with each peek left out, or made a take if it fails. Whoever goes
on with the same known names after each peek is delivered the same without the peeks
(`Enquiry.peeks_transparent`).

Candidates are `Exhausted` when a search has come to an end without a failure.
-/

namespace ProviderDiscovery

/-! ### Exhausted candidates -/

/-- Candidates are **exhausted** when the resources have been located and opened, all their names
have been looked at, and no candidate waits to be handed out. -/
structure Candidates.Exhausted (c : Candidates) : Prop where
  unread : c.unread = some []
  pending : c.pending = []
  upcoming : c.upcoming = none

namespace Candidates

variable {known : String → Bool} {c c' : Candidates} {w w' : World}

/-- Asking exhausted candidates for another one does nothing. -/
theorem Exhausted.run_hasNext (h : c.Exhausted) (known : String → Bool) (w : World) :
    (c.hasNext known).run w = ((.ok false, c), w) := by
  obtain ⟨capability, scope, unread, current, pending, upcoming, returned⟩ := c
  obtain ⟨rfl, rfl, rfl⟩ := h
  rfl

/-- A request to exhausted candidates does nothing. -/
theorem Exhausted.run_next (h : c.Exhausted) (known : String → Bool) (w : World) :
    (c.next known).run w = ((.ok none, c), w) := by
  rw [next, Action.run_bind, h.run_hasNext]
  rfl

/-- A search that finds nothing has exhausted the candidates. -/
theorem exhausted_of_run_search {rs : List Resource} (hu : c.upcoming = none)
    (h : (search known rs c).run w = ((.ok false, c'), w')) : c'.Exhausted := by
  -- The induction follows the resources: one that fails, or has a fresh name, ends the search.
  induction rs generalizing c w with
  | nil =>
    rcases searchPending_cases known c c.pending [] with ⟨hp, -⟩ | ⟨name, rest, resource, hp, -⟩
    · rw [run_search_of_not_found [] hp] at h
      obtain ⟨hpair, -⟩ := Prod.mk.inj h
      obtain ⟨-, rfl⟩ := Prod.mk.inj hpair
      exact ⟨rfl, rfl, hu⟩
    · rw [search, hp] at h
      cases h
  | cons r rest ih =>
    rcases searchPending_cases known c c.pending [] with ⟨hp, -⟩ | ⟨name, names, resource, hp, -⟩
    · rw [run_search_of_not_found (r :: rest) hp] at h
      simp only at h
      split at h
      · cases h
      · exact ih (by exact hu) h
    · rw [search, hp] at h
      cases h

/-- So has asking for another candidate, when there is none. -/
theorem exhausted_of_run_hasNext (h : (c.hasNext known).run w = ((.ok false, c'), w')) :
    c'.Exhausted := by
  cases hu : c.upcoming with
  | some candidate =>
    rw [hasNext, hu] at h
    cases h
  | none =>
    cases hunread : c.unread with
    | some located =>
      simp only [hasNext, hu, hunread, Option.isSome_none, Bool.false_eq_true, if_false] at h
      exact exhausted_of_run_search hu h
    | none =>
      cases hlocate : (c.scope.locate c.capability).run.run w with
      | mk answer located =>
        cases answer with
        | error cause =>
          rw [run_hasNext_of_unlocated known hu hunread hlocate] at h
          cases h
        | ok rs =>
          rw [run_hasNext_of_located known hu hunread hlocate] at h
          exact exhausted_of_run_search hu h

/-! ### A request after a peek -/

/-- Asking for another candidate leaves one waiting if and only if it answers that there is one. -/
theorem isSome_upcoming_iff_of_run_hasNext {answer : Except DiscoveryError Bool}
    (h : (c.hasNext known).run w = ((answer, c'), w')) :
    c'.upcoming.isSome ↔ answer = .ok true := by
  have hpeek := Enquiry.peeked_eq_ok_true_iff ⟨c, w⟩ known
  rw [Enquiry.peeked, Enquiry.step, h] at hpeek
  exact Option.isSome_iff_exists.trans hpeek.symm

/-- Asking once more changes nothing. -/
theorem run_hasNext_again {b : Bool} (h : (c.hasNext known).run w = ((.ok b, c'), w')) :
    (c'.hasNext known).run w' = ((.ok b, c'), w') := by
  cases b with
  | false => exact (exhausted_of_run_hasNext h).run_hasNext known w'
  | true =>
    obtain ⟨candidate, hcandidate⟩ :=
      Option.isSome_iff_exists.mp ((isSome_upcoming_iff_of_run_hasNext h).mpr rfl)
    exact Enquiry.run_hasNext_of_waits (s := ⟨c', w'⟩) hcandidate known

/-- A request fails when asking for another candidate does. -/
theorem run_next_of_run_hasNext_error {e : DiscoveryError}
    (h : (c.hasNext known).run w = ((.error e, c'), w')) :
    (c.next known).run w = ((.error e, c'), w') := by
  rw [next, Action.run_bind, h]
  rfl

/-- Otherwise it hands out what has been found. -/
theorem run_next_of_run_hasNext {b : Bool} (h : (c.hasNext known).run w = ((.ok b, c'), w')) :
    (c.next known).run w = ((.ok c'.upcoming, c'.handedOut), w') ∧ c'.upcoming.isSome = b := by
  rw [next, Action.run_bind, h]
  cases b with
  | false =>
    have hnone := (exhausted_of_run_hasNext h).upcoming
    rw [handedOut, hnone]
    exact ⟨rfl, rfl⟩
  | true =>
    have hsome := (isSome_upcoming_iff_of_run_hasNext h).mpr rfl
    refine ⟨?_, hsome⟩
    obtain ⟨candidate, hcandidate⟩ := Option.isSome_iff_exists.mp hsome
    simp only [handedOut, hcandidate]
    rfl

/-- A request that hands nothing out has exhausted the candidates. -/
theorem exhausted_of_run_next (h : (c.next known).run w = ((.ok none, c'), w')) :
    c'.Exhausted := by
  rcases hrun : (c.hasNext known).run w with ⟨⟨e | b, c₁⟩, w₁⟩
  · rw [run_next_of_run_hasNext_error hrun] at h
    cases h
  · obtain ⟨hnext, hb⟩ := run_next_of_run_hasNext hrun
    obtain ⟨hpair, -⟩ := Prod.mk.inj (hnext.symm.trans h)
    obtain ⟨hupcoming, rfl⟩ := Prod.mk.inj hpair
    have hnone : c₁.upcoming = none := Except.ok.inj hupcoming
    rw [handedOut_of_upcoming_eq_none hnone]
    rw [hnone] at hb
    subst hb
    exact exhausted_of_run_hasNext hrun

end Candidates

/-! ### Runs with peeks and without -/

/-- Whether a question is one with known names, or a wish to remove. -/
def Question.IsWith (known : String → Bool) (q : Question) : Prop :=
  q = .peek known ∨ q = .take known ∨ q = .remove

namespace Enquiry

variable {s s' : Enquiry} {known : String → Bool}

/-- A take does what a peek does, and hands the candidate out that waits then. -/
theorem step_take_eq (s : Enquiry) (known : String → Bool) :
    s.step (.take known) =
      ⟨(s.step (.peek known)).candidates.handedOut, (s.step (.peek known)).world⟩ := by
  rcases hrun : (s.candidates.hasNext known).run s.world with ⟨⟨e | b, c⟩, w⟩
  · have hnone : c.upcoming = none := by
      rw [← Option.not_isSome_iff_eq_none, Candidates.isSome_upcoming_iff_of_run_hasNext hrun]
      nofun
    rw [step, step, Candidates.run_next_of_run_hasNext_error hrun, hrun]
    simp only [Candidates.handedOut_of_upcoming_eq_none hnone]
  · rw [step, step, (Candidates.run_next_of_run_hasNext hrun).1, hrun]

/-- What a run of questions **delivers**: the answers to its takes, and the failures of its
peeks. -/
def delivered (s : Enquiry) : List Question → List (Except DiscoveryError (Option Candidate))
  | [] => []
  | .take known :: qs => s.taken known :: (s.step (.take known)).delivered qs
  | .peek known :: qs =>
    match s.peeked known with
    | .ok _ => (s.step (.peek known)).delivered qs
    | .error e => .error e :: (s.step (.peek known)).delivered qs
  | .remove :: qs => s.delivered qs
  | .meanwhile files others :: qs => (s.step (.meanwhile files others)).delivered qs

/-- A run of questions **without its peeks**: one that fails is made a take, and the others are left
out. -/
def withoutPeeks (s : Enquiry) : List Question → List Question
  | [] => []
  | .peek known :: qs =>
    match s.peeked known with
    | .ok _ => (s.step (.peek known)).withoutPeeks qs
    | .error _ => .take known :: (s.step (.peek known)).withoutPeeks qs
  | .take known :: qs => .take known :: (s.step (.take known)).withoutPeeks qs
  | .remove :: qs => .remove :: s.withoutPeeks qs
  | .meanwhile files others :: qs =>
    .meanwhile files others :: (s.step (.meanwhile files others)).withoutPeeks qs

/-- A run **goes on with** known names when its first question, besides wishes to remove, is one
with these names, if there is any. -/
def GoesOnWith (known : String → Bool) : List Question → Prop
  | [] => True
  | .remove :: qs => GoesOnWith known qs
  | .peek other :: _ => other = known
  | .take other :: _ => other = known
  | .meanwhile _ _ :: _ => False

/-- **Peeks are followed up** when the run goes on with the known names of each. -/
def FollowsUp : List Question → Prop
  | [] => True
  | .peek known :: qs => GoesOnWith known qs ∧ FollowsUp qs
  | _ :: qs => FollowsUp qs

/-- Enquiries are **the same to** a caller with known names when they answer its questions alike,
and are the same from then on. -/
structure SameTo (known : String → Bool) (s s' : Enquiry) : Prop where
  peeked : s.peeked known = s'.peeked known
  step_peek : s.step (.peek known) = s'.step (.peek known)
  taken : s.taken known = s'.taken known
  step_take : s.step (.take known) = s'.step (.take known)

/-- A peek that succeeds does not show. -/
theorem sameTo_step_peek {b : Bool} (h : s.peeked known = .ok b) :
    SameTo known s (s.step (.peek known)) := by
  rcases hrun : (s.candidates.hasNext known).run s.world with ⟨⟨answer, c⟩, w⟩
  rw [peeked, hrun] at h
  obtain rfl : answer = .ok b := h
  have hstep : s.step (.peek known) = ⟨c, w⟩ := by rw [step, hrun]
  have hagain := Candidates.run_hasNext_again hrun
  have hnext := (Candidates.run_next_of_run_hasNext hrun).1
  have hnextAgain := (Candidates.run_next_of_run_hasNext hagain).1
  rw [hstep]
  constructor
  · rw [peeked, peeked, hrun, hagain]
  · rw [hstep, step, hagain]
  · rw [taken, taken, hnext, hnextAgain]
  · rw [step, step, hnext, hnextAgain]

/-- A peek that fails is a take that fails. -/
theorem taken_of_peeked_error {e : DiscoveryError} (h : s.peeked known = .error e) :
    s.taken known = .error e ∧ s.step (.take known) = s.step (.peek known) := by
  rcases hrun : (s.candidates.hasNext known).run s.world with ⟨⟨answer, c⟩, w⟩
  rw [peeked, hrun] at h
  obtain rfl : answer = .error e := h
  have hnext := Candidates.run_next_of_run_hasNext_error hrun
  exact ⟨by rw [taken, hnext], by rw [step, step, hnext, hrun]⟩

/-- A take hands a candidate out if and only if a peek answers that there is one. -/
theorem exists_taken_of_peeked {b : Bool} (h : s.peeked known = .ok b) :
    ∃ candidate?, s.taken known = .ok candidate? ∧ candidate?.isSome = b := by
  rcases hrun : (s.candidates.hasNext known).run s.world with ⟨⟨answer, c⟩, w⟩
  rw [peeked, hrun] at h
  obtain rfl : answer = .ok b := h
  obtain ⟨hnext, hb⟩ := Candidates.run_next_of_run_hasNext hrun
  exact ⟨c.upcoming, by rw [taken, hnext], hb⟩

namespace SameTo

variable {qs : List Question}

/-- Enquiries that are the same to a caller deliver the same to a run that goes on with its known
names. -/
theorem delivered_eq (h : SameTo known s s') (hqs : GoesOnWith known qs) :
    s.delivered qs = s'.delivered qs := by
  induction qs with
  | nil => rfl
  | cons q rest ih =>
    cases q with
    | remove => exact ih hqs
    | peek other =>
      obtain rfl : other = known := hqs
      rw [delivered, delivered, h.peeked, h.step_peek]
    | take other =>
      obtain rfl : other = known := hqs
      rw [delivered, delivered, h.taken, h.step_take]
    | meanwhile files others => exact hqs.elim

/-- Such a run is the same without its peeks. -/
theorem withoutPeeks_eq (h : SameTo known s s') (hqs : GoesOnWith known qs) :
    s.withoutPeeks qs = s'.withoutPeeks qs := by
  induction qs with
  | nil => rfl
  | cons q rest ih =>
    cases q with
    | remove => exact congrArg (.remove :: ·) (ih hqs)
    | peek other =>
      obtain rfl : other = known := hqs
      rw [withoutPeeks, withoutPeeks, h.peeked, h.step_peek]
    | take other =>
      obtain rfl : other = known := hqs
      rw [withoutPeeks, withoutPeeks, h.step_take]
    | meanwhile files others => exact hqs.elim

/-- A run that goes on with the known names and takes in the end leaves them the same. -/
theorem after_eq (h : SameTo known s s') {last : String → Bool}
    (hqs : GoesOnWith known (qs ++ [.take last])) :
    s.after (qs ++ [.take last]) = s'.after (qs ++ [.take last]) := by
  induction qs with
  | nil =>
    obtain rfl : last = known := hqs
    exact h.step_take
  | cons q rest ih =>
    rw [List.cons_append, after_cons, after_cons]
    cases q with
    | remove => exact ih hqs
    | peek other =>
      obtain rfl : other = known := hqs
      rw [h.step_peek]
    | take other =>
      obtain rfl : other = known := hqs
      rw [h.step_take]
    | meanwhile files others => exact hqs.elim

end SameTo

/-- Peeks that are followed up do not count: the same is delivered without them. -/
theorem delivered_withoutPeeks {qs : List Question} (h : FollowsUp qs) :
    s.delivered (s.withoutPeeks qs) = s.delivered qs := by
  induction qs generalizing s with
  | nil => rfl
  | cons q rest ih =>
    cases q with
    | remove => exact ih h
    | meanwhile files others => exact ih h
    | take known =>
      rw [withoutPeeks, delivered, delivered, ih h]
    | peek known =>
      obtain ⟨hgoes, hrest⟩ := h
      cases hpeek : s.peeked known with
      | ok b =>
        have hsame := sameTo_step_peek hpeek
        rw [withoutPeeks, delivered, hpeek]
        simp only
        rw [← hsame.withoutPeeks_eq hgoes, ih hrest, hsame.delivered_eq hgoes]
      | error e =>
        obtain ⟨htaken, hstep⟩ := taken_of_peeked_error hpeek
        rw [withoutPeeks, delivered, hpeek]
        simp only
        rw [delivered, htaken, hstep, ih hrest]

/-- They do not count for what comes of the enquiry either, when a take comes last. -/
theorem after_withoutPeeks {qs : List Question} {last : String → Bool}
    (h : FollowsUp (qs ++ [.take last])) :
    s.after (s.withoutPeeks (qs ++ [.take last])) = s.after (qs ++ [.take last]) := by
  induction qs generalizing s with
  | nil => rfl
  | cons q rest ih =>
    rw [List.cons_append] at h ⊢
    cases q with
    | remove => exact ih h
    | meanwhile files others => exact ih h
    | take known =>
      rw [withoutPeeks, after_cons, after_cons, ih h]
    | peek known =>
      obtain ⟨hgoes, hrest⟩ := h
      cases hpeek : s.peeked known with
      | ok b =>
        have hsame := sameTo_step_peek hpeek
        rw [withoutPeeks, hpeek]
        simp only
        rw [← hsame.withoutPeeks_eq hgoes, ih hrest, after_cons, hsame.after_eq hgoes]
      | error e =>
        obtain ⟨htaken, hstep⟩ := taken_of_peeked_error hpeek
        rw [withoutPeeks, hpeek]
        simp only
        rw [after_cons, hstep, ih hrest, after_cons]

/-- No peek is left. -/
theorem peek_notMem_withoutPeeks (s : Enquiry) (qs : List Question) (known : String → Bool) :
    .peek known ∉ s.withoutPeeks qs := by
  induction qs generalizing s with
  | nil => exact List.not_mem_nil
  | cons q rest ih =>
    cases q with
    | remove => exact List.not_mem_cons_of_ne_of_not_mem nofun (ih s)
    | meanwhile files others => exact List.not_mem_cons_of_ne_of_not_mem nofun (ih _)
    | take other => exact List.not_mem_cons_of_ne_of_not_mem nofun (ih _)
    | peek other =>
      rw [withoutPeeks]
      cases s.peeked other with
      | ok b => exact ih _
      | error e => exact List.not_mem_cons_of_ne_of_not_mem nofun (ih _)

/-! ### One caller -/

theorem goesOnWith_replicate (known : String → Bool) (n : Nat) :
    GoesOnWith known (List.replicate n (.take known)) := by
  cases n with
  | zero => trivial
  | succ n => rfl

/-- What is delivered to one caller is what it would get by taking as often. -/
theorem delivered_eq_delivered_replicate {qs : List Question} (h : ∀ q ∈ qs, q.IsWith known) :
    s.delivered qs =
      s.delivered (List.replicate (s.delivered qs).length (.take known)) := by
  induction qs generalizing s with
  | nil => rfl
  | cons q rest ih =>
    obtain ⟨hq, hrest⟩ := List.forall_mem_cons.mp h
    rcases hq with rfl | rfl | rfl
    · rw [delivered]
      cases hpeek : s.peeked known with
      | ok b =>
        simp only
        rw [(sameTo_step_peek hpeek).delivered_eq (goesOnWith_replicate known _)]
        exact ih hrest
      | error e =>
        obtain ⟨htaken, hstep⟩ := taken_of_peeked_error hpeek
        simp only
        rw [List.length_cons, List.replicate_succ, delivered, htaken, hstep, ← ih hrest]
    · rw [delivered, List.length_cons, List.replicate_succ, delivered, ← ih hrest]
    · exact ih hrest

/-- **Peeks are transparent.** Peek into an enquiry, whatever its state is. If the peek succeeds, it
can be repeated with the same answer, and changes nothing then; and a take with the same known names
gets what it would get without the peek, a candidate if and only if the peek has said so, and leaves
the same state. If the peek fails, a take in its place fails in the same way and leaves the same
state. So take any run of questions in which peeks are followed up with the same known names.
Without the peeks, those that fail being takes, the run delivers the same, and leaves the same state
if a take comes last. And what is delivered to one caller is what it would get by taking as often,
however often it peeks and wherever. -/
theorem peeks_transparent (s : Enquiry) :
    (∀ known,
      match s.peeked known with
      | .ok b =>
        let p := s.step (.peek known)
        p.peeked known = .ok b ∧ p.step (.peek known) = p ∧
          p.taken known = s.taken known ∧ p.step (.take known) = s.step (.take known) ∧
          ∃ candidate?, s.taken known = .ok candidate? ∧ candidate?.isSome = b
      | .error e => s.taken known = .error e ∧ s.step (.take known) = s.step (.peek known)) ∧
    (∀ qs, FollowsUp qs →
      (∀ known, .peek known ∉ s.withoutPeeks qs) ∧
        s.delivered (s.withoutPeeks qs) = s.delivered qs ∧
        ∀ front last, qs = front ++ [.take last] →
          s.after (s.withoutPeeks qs) = s.after qs) ∧
    ∀ known qs, (∀ q ∈ qs, q.IsWith known) →
      s.delivered qs =
        s.delivered (List.replicate (s.delivered qs).length (.take known)) := by
  refine ⟨fun known => ?_, fun qs hqs => ⟨s.peek_notMem_withoutPeeks qs,
    delivered_withoutPeeks hqs, fun front last hlast => ?_⟩,
    fun known qs hqs => delivered_eq_delivered_replicate hqs⟩
  · cases hpeek : s.peeked known with
    | error e => exact taken_of_peeked_error hpeek
    | ok b =>
      have hsame := sameTo_step_peek hpeek
      exact ⟨hsame.peeked.symm.trans hpeek, hsame.step_peek.symm, hsame.taken.symm,
        hsame.step_take.symm, exists_taken_of_peeked hpeek⟩
  · subst hlast
    exact after_withoutPeeks hqs

/-- An enquiry for the names in three resources. -/
def amongThree : Enquiry :=
  start ⟨"x.Codec"⟩ (.party ⟨⟨0⟩, "three", fun _ _ => .ok threeResources⟩) (.fresh ∅ ∅)

/-- The known names of a caller that knows nothing. -/
def knowsNothing (_ : String) : Bool := false

/-- Two peeks before `A`, one that meets the malformed resource, and one before `C`. -/
def peekingRun : List Question :=
  [.peek knowsNothing, .remove, .peek knowsNothing, .take knowsNothing, .peek knowsNothing,
    .peek knowsNothing, .take knowsNothing, .take knowsNothing]

/-- The peek that meets the malformed resource counts as a take, the others do not count. -/
theorem peeks_transparent_threeResources :
    FollowsUp peekingRun ∧ (∀ q ∈ peekingRun, q.IsWith knowsNothing) ∧
      amongThree.withoutPeeks peekingRun =
        [.remove, .take knowsNothing, .take knowsNothing, .take knowsNothing,
          .take knowsNothing] ∧
      amongThree.delivered (amongThree.withoutPeeks peekingRun) =
        [.ok (some ⟨"A", ⟨"1"⟩⟩), .error ⟨⟨"x.Codec"⟩, .malformed ⟨"2"⟩ 2 .illegalSyntax⟩,
          .ok (some ⟨"C", ⟨"3"⟩⟩), .ok none] ∧
      amongThree.delivered (List.replicate 4 (.take knowsNothing)) =
        amongThree.delivered peekingRun := by
  have hfollows : FollowsUp peekingRun := ⟨rfl, rfl, rfl, rfl, trivial⟩
  have hwith : ∀ q ∈ peekingRun, q.IsWith knowsNothing := by simp [peekingRun, Question.IsWith]
  have hdelivered : amongThree.delivered peekingRun =
      [.ok (some ⟨"A", ⟨"1"⟩⟩), .error ⟨⟨"x.Codec"⟩, .malformed ⟨"2"⟩ 2 .illegalSyntax⟩,
        .ok (some ⟨"C", ⟨"3"⟩⟩), .ok none] := rfl
  obtain ⟨-, hruns, hone⟩ := peeks_transparent amongThree
  have htakes := hone knowsNothing peekingRun hwith
  rw [hdelivered] at htakes
  refine ⟨hfollows, hwith, rfl, (hruns peekingRun hfollows).2.1.trans hdelivered, ?_⟩
  rw [hdelivered, htakes]
  rfl

end Enquiry

end ProviderDiscovery
