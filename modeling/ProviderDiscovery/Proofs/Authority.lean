import ProviderDiscovery.Authority
import ProviderDiscovery.Proofs.Events

/-!
# Steps under an authority

However often an authority asks for a step, the step is carried out at most once: the first time.
So a step under an authority has one of two outcomes. Either it is not carried out, its state stays
and the answer is a denial; or it is carried out in the world in which the authority has been
entered, and only its answer may be withheld.
-/

namespace ProviderDiscovery

/-- The authority asks for the step, once or more often, and does not refuse. -/
structure Entrance.Permits (e : Entrance) : Prop where
  runs : e.runs ≠ 0
  refusal : e.refusal = none

/-! ### Errands -/

namespace Errand

variable {σ α : Type} (step : σ → Action (α × σ))

/-- An errand that has been carried out is not carried out again. -/
theorem askTimes_of_answer {e : Errand σ α} {a : α} (h : e.answer = some a) (n : Nat) :
    e.askTimes step n = pure e := by
  induction n with
  | zero => rfl
  | succ n ih =>
    have hask : e.ask step = pure e := by
      rw [ask, h]
    rw [askTimes, hask]
    exact ih

/-- Asking once or more often carries an errand out once. -/
theorem run_askTimes_given {n : Nat} (hn : n ≠ 0) (s : σ) (w : World) :
    ((given s).askTimes step n).run w =
      (⟨some ((step s).run w).1.1, ((step s).run w).1.2⟩, ((step s).run w).2) := by
  cases n with
  | zero => exact absurd rfl hn
  | succ n =>
    have hask : ((given s).ask step).run w =
        (⟨some ((step s).run w).1.1, ((step s).run w).1.2⟩, ((step s).run w).2) := rfl
    rw [askTimes, Action.run_bind, hask, askTimes_of_answer step rfl]
    rfl

end Errand

/-! ### The two outcomes of a step -/

namespace Authority

/-- What the authority does when it is entered in a world. Without an authority a step is carried
out once. -/
def entranceIn (a : Authority) (w : World) : Entrance :=
  match a with
  | .unrestricted => ⟨1, none⟩
  | .held _ party => party.entrance (w.callCount party.handle)

/-- The world in which the authority has been entered. -/
def enter (a : Authority) (w : World) : World :=
  match a with
  | .unrestricted => w
  | .held token party => w.after [.entered party.handle token]

/-- The answer that is let through when a step has been carried out. -/
def release {α : Type} (a : Authority) (w : World) (capability : CapabilityId) (answer : α) :
    Except DiscoveryError α :=
  match (a.entranceIn w).refusal with
  | some reason => .error ⟨capability, .privilegeDenied reason⟩
  | none => .ok answer

/-- What entering the authority does: nothing when there is none. -/
def entry : Authority → List Event
  | .unrestricted => []
  | .held token party => [.entered party.handle token]

/-- The reason that is given for a step that is not carried out: that of the refusal, if the
authority refuses. -/
def denial (a : Authority) (e : Entrance) : String :=
  e.refusal.getD ("context for " ++ a.token?.elim "" Token.label ++ " did not run the action")

variable {σ α : Type} {a : Authority} {w : World}

theorem enter_eq_after_entry (a : Authority) (w : World) : a.enter w = w.after a.entry := by
  cases a <;> rfl

theorem isSearch_of_mem_entry {e : Event} (he : e ∈ a.entry) : e.isSearch := by
  cases a with
  | unrestricted => cases he
  | held token party =>
    rw [List.mem_singleton.mp he]
    rfl

theorem enter_eq_after (a : Authority) (w : World) :
    ∃ es, a.enter w = w.after es ∧ ∀ e ∈ es, e.isSearch :=
  ⟨a.entry, a.enter_eq_after_entry w, fun _ => isSearch_of_mem_entry⟩

/-- Without an authority a step is simply taken. -/
theorem run_unrestricted (capability : CapabilityId) (step : σ → Action (α × σ)) (s : σ)
    (w : World) :
    (unrestricted.run capability step s).run w =
      ((.ok ((step s).run w).1.1, ((step s).run w).1.2), ((step s).run w).2) :=
  rfl

/-- A step that the authority does not ask for is not carried out. -/
theorem run_of_runs_eq_zero (h : (a.entranceIn w).runs = 0) (capability : CapabilityId)
    (step : σ → Action (α × σ)) (s : σ) :
    (a.run capability step s).run w =
      ((.error ⟨capability, .privilegeDenied (a.denial (a.entranceIn w))⟩, s), a.enter w) := by
  cases a with
  | unrestricted => cases h
  | held token party =>
    have hruns : (party.entrance (w.callCount party.handle)).runs = 0 := h
    simp only [run, Action.run_bind, run_countCall, hruns, denial, entranceIn]
    cases (party.entrance (w.callCount party.handle)).refusal <;> rfl

/-- A step that the authority asks for is carried out once, however often it asks. -/
theorem run_of_runs_ne_zero (h : (a.entranceIn w).runs ≠ 0) (capability : CapabilityId)
    (step : σ → Action (α × σ)) (s : σ) :
    (a.run capability step s).run w =
      ((a.release w capability ((step s).run (a.enter w)).1.1,
        ((step s).run (a.enter w)).1.2), ((step s).run (a.enter w)).2) := by
  cases a with
  | unrestricted => rfl
  | held token party =>
    have hruns : (party.entrance (w.callCount party.handle)).runs ≠ 0 := h
    simp only [run, Action.run_bind, run_countCall, Errand.run_askTimes_given step hruns, release,
      entranceIn]
    cases (party.entrance (w.callCount party.handle)).refusal <;> rfl

/-- Steps that do the same on a state do the same on it under an authority. -/
theorem run_congr {step step' : σ → Action (α × σ)} {s : σ} (h : step s = step' s) (a : Authority)
    (capability : CapabilityId) : a.run capability step s = a.run capability step' s := by
  funext w
  change (a.run capability step s).run w = (a.run capability step' s).run w
  by_cases hruns : (a.entranceIn w).runs = 0
  · rw [run_of_runs_eq_zero hruns, run_of_runs_eq_zero hruns]
  · rw [run_of_runs_ne_zero hruns, run_of_runs_ne_zero hruns, h]

/-- A step under an authority does what entering the authority and the step do. -/
theorem doesOnly_run {P : Event → Prop} {step : σ → Action (α × σ)} {s : σ}
    (hentry : ∀ e ∈ a.entry, P e) (hstep : DoesOnly P (step s)) (capability : CapabilityId) :
    DoesOnly P (a.run capability step s) := by
  intro w
  by_cases hruns : (a.entranceIn w).runs = 0
  · refine ⟨a.entry, ?_, hentry⟩
    rw [run_of_runs_eq_zero hruns, enter_eq_after_entry]
  · obtain ⟨es, hworld, hes⟩ := hstep (w.after a.entry)
    refine ⟨a.entry ++ es, ?_, List.forall_mem_append.mpr ⟨hentry, hes⟩⟩
    rw [run_of_runs_ne_zero hruns, enter_eq_after_entry, hworld, World.after_after]

/-! ### Steps that are permitted -/

/-- A step that the authority permits is carried out, and its answer is let through. -/
theorem run_of_permits (h : (a.entranceIn w).Permits) (capability : CapabilityId)
    (step : σ → Action (α × σ)) (s : σ) :
    (a.run capability step s).run w =
      ((.ok ((step s).run (w.after a.entry)).1.1, ((step s).run (w.after a.entry)).1.2),
        ((step s).run (w.after a.entry)).2) := by
  rw [run_of_runs_ne_zero h.runs, release, h.refusal, enter_eq_after_entry]

/-- The authority **permits** all steps from now on. -/
def PermitsFrom (a : Authority) (w : World) : Prop := ∀ es, (a.entranceIn (w.after es)).Permits

theorem PermitsFrom.permits (h : a.PermitsFrom w) : (a.entranceIn w).Permits := h []

theorem PermitsFrom.after (h : a.PermitsFrom w) (es : List Event) : a.PermitsFrom (w.after es) :=
  fun fs => by
    rw [World.after_after]
    exact h (es ++ fs)

/-- Neither files nor types make a difference to an authority. -/
theorem PermitsFrom.changed (h : a.PermitsFrom w) (files : FileTree) (registry : Registry) :
    a.PermitsFrom { w with files := files, registry := registry } := by
  cases a with
  | unrestricted => exact h
  | held token party => exact h

theorem permitsFrom_unrestricted (w : World) : unrestricted.PermitsFrom w :=
  fun _ => ⟨Nat.one_ne_zero, rfl⟩

/-- A party that permits all steps from a number on permits them once it has been entered that
often. -/
theorem permitsFrom_held {token : Token} {party : AuthorityParty}
    (h : ∀ n, w.callCount party.handle ≤ n → (party.entrance n).Permits) :
    (held token party).PermitsFrom w :=
  fun es => h _ (w.callCount_le_after party.handle es)

end Authority

end ProviderDiscovery
