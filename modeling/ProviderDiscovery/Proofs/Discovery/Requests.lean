import ProviderDiscovery.Proofs.Discovery.Permissive
import ProviderDiscovery.Proofs.Discovery.Refinement

/-!
# Requests to the pass in hand

A request to the pass in hand does one of four things. Without a pass it does nothing, a pass that
has ended answers `none`, an open pass replays the instance at its position, and at the end of the
instances the discovery takes a step. `Session.Requested` names these cases with all that they
change, so that what a session keeps to is shown for each of them.
-/

namespace ProviderDiscovery

/-- Whether an operation is a request to the pass in hand. -/
def Operation.isRequest : Operation → Bool
  | .next => true
  | _ => false

/-- Whether the pass in hand is still in hand after an operation. -/
def Operation.keepsPass : Operation → Bool
  | .iterate | .reload => false
  | _ => true

namespace Session

/-- What a **request** does: the session that it leads to, and what the discovery does. -/
inductive Requested (s : Session) : Session → List Event → Prop where
  /-- Without a pass a request does nothing. -/
  | idle (hp : s.pass = none) : Requested s s []
  /-- A pass that has ended stays ended. -/
  | ended {p : Pass} (hp : s.pass = some p) (hended : p.ended = true) :
      Requested s { s with answers := s.answers ++ [none] } []
  /-- An instance is replayed. -/
  | replayed {p : Pass} {slot : String × Provider} (hp : s.pass = some p) (hopen : p.ended = false)
      (hslot : s.discovery.instances.entries[p.position]? = some slot) :
      Requested s { s with pass := some { p with position := p.position + 1 },
                           answers := s.answers ++ [slotAnswer slot] } []
  /-- The discovery takes a step. -/
  | stepped {p : Pass} {answer : Except DiscoveryError (Option Provider)} {d : Discovery}
      {es : List Event} (hp : s.pass = some p) (hopen : p.ended = false)
      (hslot : s.discovery.instances.entries[p.position]? = none)
      (hrun : s.discovery.advance.run s.world = ((answer, d), s.world.after es)) :
      Requested s ⟨d, s.world.after es, some (p.answered d answer).2,
        s.answers ++ [(p.answered d answer).1], s.events ++ es⟩ es

/-- A request does one of these things. -/
theorem requested_next {s : Session} (hu : s.discovery.candidates.upcoming = none) :
    s.Requested s.next (s.done .next) := by
  cases hp : s.pass with
  | none =>
    rw [next_of_pass_eq_none hp, done_next_of_pass_eq_none hp]
    exact .idle hp
  | some p =>
    cases hopen : p.ended with
    | true =>
      have hrun := Pass.run_next_of_ended hopen s.discovery s.world
      have hdone : s.done .next = [] := done_next_of_run hp hrun
      rw [next_of_replay hp hrun, hdone, ← hp]
      exact .ended hp hopen
    | false =>
      cases hslot : s.discovery.instances.entries[p.position]? with
      | some slot =>
        have hrun := Pass.run_next_of_slot hopen hslot s.world
        have hdone : s.done .next = [] := done_next_of_run hp hrun
        rw [next_of_replay hp hrun, hdone]
        exact .replayed hp hopen hslot
      | none =>
        obtain ⟨answer, d, es, hadvance, -⟩ := s.discovery.run_advance s.world hu
        have hrun := Pass.run_next_of_advance hopen hslot hadvance
        rw [next_of_run hp hrun, done_next_of_run hp hrun]
        exact .stepped hp hopen hslot hadvance

/-- A request that makes the discovery take a step leads to where the step leads. -/
theorem next_of_isAttempt {s : Session} (hs : s.isAttempt .next)
    {answer : Except DiscoveryError (Option Provider)} {d : Discovery} {es : List Event}
    (hrun : s.discovery.advance.run s.world = ((answer, d), s.world.after es)) :
    ∃ p, s.pass = some p ∧ p.ended = false ∧
      s.next = ⟨d, s.world.after es, some (p.answered d answer).2,
        s.answers ++ [(p.answered d answer).1], s.events ++ es⟩ := by
  obtain ⟨p, hp, hopen, hslot⟩ := exists_pass_of_isAttempt hs
  exact ⟨p, hp, hopen, next_of_run hp (Pass.run_next_of_advance hopen hslot hrun)⟩

/-- A request that takes no step of the discovery leaves it, and the world, as they are. -/
theorem next_of_isAttempt_eq_false {s : Session} (hu : s.discovery.candidates.upcoming = none)
    (hs : s.isAttempt .next = false) :
    s.next.discovery = s.discovery ∧ s.next.world = s.world := by
  have hrequested := requested_next hu
  generalize s.next = t, s.done .next = es at hrequested ⊢
  cases hrequested with
  | stepped hp hopen hslot hrun =>
    have hindex : s.discovery.instances.getIndex? _ = none := hslot
    simp [isAttempt, hp, hopen, hindex] at hs
  | _ => exact ⟨rfl, rfl⟩

/-- A session with a fresh discovery keeps to what sessions keep to. -/
theorem kept_of_fresh {d : Discovery} (hfresh : d.Fresh) (w : World) : (start d w).Kept := by
  have hcandidates : (start d w).discovery.candidates = .start d.capability d.scope :=
    hfresh.candidates
  refine ⟨?upcoming, ?returned, List.nil_sublist _, .slnil, .slnil, hfresh.entries, ?capability⟩
  case upcoming => rw [hcandidates]; rfl
  case returned => rw [hcandidates]; exact .nil
  case capability => rw [hcandidates]; rfl

/-! ### Authorities that permit all steps -/

/-- An authority that permits all steps from now on permits them after an operation. -/
theorem Kept.permitsFrom_step {s : Session} (hk : s.Kept) {a : Authority}
    (h : a.PermitsFrom s.world) (op : Operation) : a.PermitsFrom (s.step op).world := by
  cases op with
  | next =>
    have hrequested := requested_next hk.upcoming
    rw [Session.step]
    generalize s.next = t, s.done .next = es at hrequested ⊢
    cases hrequested with
    | stepped hp hopen hslot hrun => exact h.after _
    | _ => exact h
  | meanwhile files registry others => exact (h.after others).changed files registry
  | _ => exact h

theorem Kept.permitsFrom_after {s : Session} (hk : s.Kept) {a : Authority}
    (h : a.PermitsFrom s.world) (ops : List Operation) : a.PermitsFrom (s.after ops).world := by
  induction ops generalizing s with
  | nil => exact h
  | cons op rest ih => exact ih (hk.step op) (hk.permitsFrom_step h op)

end Session

end ProviderDiscovery
