import ProviderDiscovery.World

/-!
# What steps do to the world

A step changes the world in one way only: it adds events to the history. `World.after` is the
world with events added, and `DoesOnly P x` says that all events of the step `x` are of the kind
`P`. The kinds compose along the binds of a step, so a frame fact about a whole operation comes
from those about its parts.
-/

namespace ProviderDiscovery

/-! ### Kinds of events -/

namespace Event

/-- The event belongs to the search for candidates, or to the authority under which it goes on. -/
def isSearch : Event → Bool
  | .asked .. | .probed _ | .opened _ | .entered .. => true
  | _ => false

/-- The event belongs to the search for resources: a scope is asked, or a party that answers for
one. -/
def asks : Event → Bool
  | .asked .. | .probed _ => true
  | _ => false

theorem isSearch_of_asks {e : Event} (h : e.asks) : e.isSearch := by
  cases e <;> first | rfl | simp [asks] at h

/-- The event belongs to the acceptance of a name. -/
def isAcceptance : Event → Bool
  | .resolved _ | .consulted .. | .constructed .. | .made .. => true
  | _ => false

/-- No scope is asked in an acceptance. -/
theorem asks_eq_false_of_isAcceptance {e : Event} (h : e.isAcceptance) : e.asks = false := by
  cases e <;> first | rfl | simp [isAcceptance] at h

/-- The name that was taken up for acceptance. -/
def tried? : Event → Option String
  | .accepting name _ => some name
  | _ => none

/-- The name whose factory was called. -/
def called? : Event → Option String
  | .constructed _ name _ => some name
  | _ => none

/-- The name for which a provider was made, and the provider. -/
def made? : Event → Option (String × Provider)
  | .made name provider => some (name, provider)
  | _ => none

/-- No name is taken up for acceptance in a search. -/
theorem tried?_of_isSearch {e : Event} (h : e.isSearch) : e.tried? = none := by
  cases e <;> first | rfl | simp [isSearch] at h

/-- No factory is called in a search. -/
theorem called?_of_isSearch {e : Event} (h : e.isSearch) : e.called? = none := by
  cases e <;> first | rfl | simp [isSearch] at h

/-- No provider is made in a search. -/
theorem made?_of_isSearch {e : Event} (h : e.isSearch) : e.made? = none := by
  cases e <;> first | rfl | simp [isSearch] at h

end Event

/-- The names that were taken up for acceptance, in the order of the events. -/
def triedNames (es : List Event) : List String := es.filterMap Event.tried?

/-- The names whose factories were called, in the order of the events. -/
def calledNames (es : List Event) : List String := es.filterMap Event.called?

/-- The providers that were made, by name and in the order of the events. -/
def madeProviders (es : List Event) : List (String × Provider) := es.filterMap Event.made?

@[simp] theorem triedNames_nil : triedNames [] = [] := rfl

@[simp] theorem calledNames_nil : calledNames [] = [] := rfl

@[simp] theorem madeProviders_nil : madeProviders [] = [] := rfl

@[simp] theorem triedNames_append (es fs : List Event) :
    triedNames (es ++ fs) = triedNames es ++ triedNames fs :=
  List.filterMap_append

@[simp] theorem calledNames_append (es fs : List Event) :
    calledNames (es ++ fs) = calledNames es ++ calledNames fs :=
  List.filterMap_append

@[simp] theorem madeProviders_append (es fs : List Event) :
    madeProviders (es ++ fs) = madeProviders es ++ madeProviders fs :=
  List.filterMap_append

/-- Events are **unseen** in the three views when no name is taken up, no factory is called and no
provider is made. -/
structure Unseen (es : List Event) : Prop where
  tried : triedNames es = []
  called : calledNames es = []
  made : madeProviders es = []

/-- A search is unseen. -/
theorem unseen_of_isSearch {es : List Event} (h : ∀ e ∈ es, e.isSearch) : Unseen es where
  tried := List.filterMap_eq_nil_iff.mpr fun e he => Event.tried?_of_isSearch (h e he)
  called := List.filterMap_eq_nil_iff.mpr fun e he => Event.called?_of_isSearch (h e he)
  made := List.filterMap_eq_nil_iff.mpr fun e he => Event.made?_of_isSearch (h e he)

namespace Unseen

variable {es : List Event}

theorem triedNames_append (h : Unseen es) (fs : List Event) :
    triedNames (es ++ fs) = triedNames fs := by
  rw [ProviderDiscovery.triedNames_append, h.tried, List.nil_append]

theorem calledNames_append (h : Unseen es) (fs : List Event) :
    calledNames (es ++ fs) = calledNames fs := by
  rw [ProviderDiscovery.calledNames_append, h.called, List.nil_append]

theorem madeProviders_append (h : Unseen es) (fs : List Event) :
    madeProviders (es ++ fs) = madeProviders fs := by
  rw [ProviderDiscovery.madeProviders_append, h.made, List.nil_append]

end Unseen

/-! ### Worlds after events -/

namespace World

/-- The world after more events, the earliest first. -/
def after (w : World) (es : List Event) : World := { w with history := es.reverse ++ w.history }

@[simp] theorem files_after (w : World) (es : List Event) : (w.after es).files = w.files := rfl

@[simp] theorem registry_after (w : World) (es : List Event) :
    (w.after es).registry = w.registry := rfl

@[simp] theorem after_nil (w : World) : w.after [] = w := rfl

/-- Calls of a party are counted on. -/
theorem callCount_after (w : World) (h : Handle) (es : List Event) :
    (w.after es).callCount h = w.callCount h + es.countP (·.calls h) := by
  rw [callCount, after, List.countP_append, List.countP_reverse, Nat.add_comm, callCount]

theorem callCount_le_after (w : World) (h : Handle) (es : List Event) :
    w.callCount h ≤ (w.after es).callCount h := by
  rw [callCount_after]
  exact Nat.le_add_right ..

/-- An authority has been called once more when it has been entered. -/
theorem callCount_after_entered (w : World) (h : Handle) (token : Token) :
    (w.after [.entered h token]).callCount h = w.callCount h + 1 := by
  rw [callCount_after]
  simp [Event.calls]

/-- Each call of a factory has one value. -/
theorem length_constructed (w : World) :
    w.constructed.length = (calledNames w.history).length := by
  obtain ⟨files, registry, history⟩ := w
  rw [constructed, List.length_reverse]
  induction history with
  | nil => rfl
  | cons e rest ih =>
    rw [calledNames, List.filterMap_cons, List.filterMap_cons]
    cases e <;> simpa [Event.called?, calledNames] using ih

/-- Calls of factories are numbered on. -/
theorem length_constructed_after (w : World) (es : List Event) :
    (w.after es).constructed.length = w.constructed.length + (calledNames es).length := by
  rw [length_constructed, length_constructed, after, calledNames_append, List.length_append]
  simp [calledNames, List.filterMap_reverse, Nat.add_comm]

theorem after_after (w : World) (es fs : List Event) :
    (w.after es).after fs = w.after (es ++ fs) := by
  simp [after]

/-- The events that have come in since an earlier world, the earliest first. -/
def eventsSince (w earlier : World) : List Event :=
  (w.history.take (w.history.length - earlier.history.length)).reverse

@[simp] theorem eventsSince_after (w : World) (es : List Event) :
    (w.after es).eventsSince w = es := by
  simp [eventsSince, after]

/-- What has been done is seen in the world. -/
theorem after_inj {w : World} {es fs : List Event} (h : w.after es = w.after fs) : es = fs := by
  rw [← eventsSince_after w es, h, eventsSince_after]

end World

/-! ### Steps as functions of the world -/

namespace Action

variable {α β : Type}

theorem run_bind (x : Action α) (f : α → Action β) (w : World) :
    (x >>= f).run w = (f (x.run w).1).run (x.run w).2 := rfl

/-- A step that goes on with the world as it is. -/
theorem run_get_bind (f : World → Action β) (w : World) :
    ((get : Action World) >>= f).run w = (f w).run w := rfl

/-- What follows a step matters for the answers only that the step can give. -/
theorem bind_congr_of_answer {x : Action α} {f g : α → Action β}
    (h : ∀ w, f (x.run w).1 = g (x.run w).1) : x >>= f = x >>= g := by
  funext w
  change (f (x.run w).1).run (x.run w).2 = (g (x.run w).1).run (x.run w).2
  rw [h]

end Action

theorem run_record (e : Event) (w : World) : (record e).run w = ((), w.after [e]) := rfl

theorem run_countCall (h : Handle) (e : Event) (w : World) :
    (countCall h e).run w = (w.callCount h, w.after [e]) := rfl

/-- The steps of an attempt, one after the other: a failure of the first is the answer. -/
theorem run_attempt_bind {α β ε : Type} (x : Attempt ε α) (f : α → Attempt ε β) (w : World) :
    (x >>= f).run.run w =
      match x.run.run w with
      | (.error e, w') => (.error e, w')
      | (.ok a, w') => (f a).run.run w' := by
  rw [ExceptT.run_bind, Action.run_bind]
  generalize x.run.run w = answered
  obtain ⟨e | a, w'⟩ := answered <;> rfl

/-- The step **does only** events of a kind, and leaves files and types. -/
def DoesOnly {α : Type} (P : Event → Prop) (x : Action α) : Prop :=
  ∀ w, ∃ es, (x.run w).2 = w.after es ∧ ∀ e ∈ es, P e

namespace DoesOnly

variable {α β ε : Type} {P : Event → Prop}

protected theorem pure (a : α) : DoesOnly P (pure a : Action α) :=
  fun w => ⟨[], rfl, by simp⟩

/-- What follows a step may depend on what the step can answer. -/
theorem bind_of_answer {x : Action α} {f : α → Action β} (hx : DoesOnly P x)
    (hf : ∀ w, DoesOnly P (f (x.run w).1)) : DoesOnly P (x >>= f) := by
  intro w
  obtain ⟨es, hw, hes⟩ := hx w
  obtain ⟨fs, hw', hfs⟩ := hf w (x.run w).2
  refine ⟨es ++ fs, ?_, List.forall_mem_append.mpr ⟨hes, hfs⟩⟩
  rw [Action.run_bind, hw', hw, World.after_after]

protected theorem bind {x : Action α} {f : α → Action β} (hx : DoesOnly P x)
    (hf : ∀ a, DoesOnly P (f a)) : DoesOnly P (x >>= f) :=
  hx.bind_of_answer fun w => hf (x.run w).1

/-- Steps that go on with the answer of the one before, for the members of a list. -/
theorem foldlM {f : β → α → Action β} (l : List α) (h : ∀ b, ∀ a ∈ l, DoesOnly P (f b a)) (b : β) :
    DoesOnly P (l.foldlM f b) := by
  induction l generalizing b with
  | nil => exact .pure _
  | cons a rest ih =>
    rw [List.foldlM_cons]
    exact .bind (h b a List.mem_cons_self) fun c =>
      ih (fun b' a' ha' => h b' a' (List.mem_cons_of_mem a ha')) c

theorem mono {Q : Event → Prop} {x : Action α} (hx : DoesOnly P x) (hPQ : ∀ e, P e → Q e) :
    DoesOnly Q x := by
  intro w
  obtain ⟨es, hw, hes⟩ := hx w
  exact ⟨es, hw, fun e he => hPQ e (hes e he)⟩

/-- Looking at the world does nothing. -/
protected theorem get : DoesOnly P (get : Action World) :=
  fun w => ⟨[], rfl, by simp⟩

protected theorem record {e : Event} (h : P e) : DoesOnly P (record e) :=
  fun w => ⟨[e], rfl, by simpa using h⟩

theorem countCall {h : Handle} {e : Event} (he : P e) : DoesOnly P (countCall h e) :=
  fun w => ⟨[e], rfl, by simpa using he⟩

/-- A step that can fail does what its parts do: those behind a failure do nothing. -/
theorem attempt_bind {x : Attempt ε α} {f : α → Attempt ε β} (hx : DoesOnly P x.run)
    (hf : ∀ a, DoesOnly P (f a).run) : DoesOnly P (x >>= f).run := by
  rw [ExceptT.run_bind]
  refine hx.bind fun answer => ?_
  cases answer with
  | error e => exact .pure _
  | ok a => exact hf a

/-- A step that cannot fail does the same where failures are allowed. -/
theorem attempt_lift {x : Action α} (hx : DoesOnly P x) :
    DoesOnly P (liftM x : Attempt ε α).run :=
  hx

theorem attempt_get : DoesOnly P (get : Attempt ε World).run :=
  fun w => ⟨[], rfl, by simp⟩

/-- An answer that is already there takes no step. -/
theorem attempt_of (a : Except ε α) :
    DoesOnly P (MonadExcept.ofExcept a : Attempt ε α).run := by
  cases a <;> exact .pure _

end DoesOnly

end ProviderDiscovery
