import ProviderDiscovery.Proofs.Discovery.Refinement

/-!
# What is told of finds

The serial number of a provider counts all calls of factories before it, so it changes when a call
is left out. What is told of a provider besides is its value. Lists of finds of which the same is
told give passes of which the same is told, and these consume as many finds. And finds that have
been consumed before only count by their providers, which every pass replays first.
-/

namespace ProviderDiscovery

/-- What is **told** of an answer: of a provider, its value. -/
def toldAnswer : Except DiscoveryError Provider → Except DiscoveryError String :=
  Except.map Provider.value

/-- What is told of an instance: its name and its value. -/
def toldSlot (slot : String × Provider) : String × String := (slot.1, slot.2.value)

namespace Find

/-- What is **told** of a find: the name that is found, and what is told of the answer. -/
def told (f : Find) : Option String × Except DiscoveryError String :=
  (f.name?, toldAnswer f.answer)

/-- The provider that is told of, by name and value. -/
def toldProvided? : Option String × Except DiscoveryError String → Option (String × String)
  | (some name, .ok value) => some (name, value)
  | _ => none

theorem toldProvided?_told (f : Find) : toldProvided? f.told = f.provided?.map toldSlot := by
  rcases f with e | ⟨name, e | provider⟩ <;> rfl

end Find

/-! ### Finds of which the same is told -/

theorem throughError_map {ε α β : Type} (f : α → β) (l : List (Except ε α)) :
    throughError (l.map (Except.map f)) = (throughError l).map (Except.map f) := by
  induction l with
  | nil => rfl
  | cons answer rest ih =>
    cases answer with
    | error e => rfl
    | ok a => exact congrArg (.ok (f a) :: ·) ih

theorem map_toldSlot_providedIn (all : List Find) (i : Nat) :
    (providedIn all i).map toldSlot =
      ((all.map Find.told).take i).filterMap Find.toldProvided? := by
  rw [providedIn, ← List.map_take, List.filterMap_map, List.map_filterMap]
  exact congrArg (List.filterMap · _) (funext fun f => (Find.toldProvided?_told f).symm)

theorem map_toldAnswer_newAnswers (all : List Find) (i : Nat) :
    (newAnswers all i).map toldAnswer =
      throughError (((all.map Find.told).drop i).map Prod.snd) := by
  rw [newAnswers, toldAnswer, ← throughError_map, ← List.map_drop, List.map_map, List.map_map]
  rfl

theorem map_toldAnswer_replayed (entries : List (String × Provider)) :
    (replayed entries).map toldAnswer =
      (entries.map toldSlot).map fun slot => .ok slot.2 := by
  rw [replayed, List.map_map, List.map_map]
  rfl

section SameTold

variable {all all' : List Find} (h : all.map Find.told = all'.map Find.told)
include h

/-- Passes yield answers of which the same is told. -/
theorem map_toldAnswer_passAnswers_eq (i : Nat) :
    (passAnswers all i).map toldAnswer = (passAnswers all' i).map toldAnswer := by
  rw [passAnswers, passAnswers, List.map_append, List.map_append, map_toldAnswer_replayed,
    map_toldAnswer_replayed, map_toldSlot_providedIn, map_toldSlot_providedIn,
    map_toldAnswer_newAnswers, map_toldAnswer_newAnswers, h]

/-- Passes consume as many finds. -/
theorem consumedAfter_eq_of_told (i n : Nat) : consumedAfter all i n = consumedAfter all' i n := by
  have hprovided := congrArg List.length
    ((map_toldSlot_providedIn all i).trans (h ▸ (map_toldSlot_providedIn all' i).symm))
  have hanswers := congrArg List.length
    ((map_toldAnswer_newAnswers all i).trans (h ▸ (map_toldAnswer_newAnswers all' i).symm))
  rw [List.length_map, List.length_map] at hprovided hanswers
  rw [consumedAfter, consumedAfter, hprovided, hanswers]

end SameTold

theorem toldAnswer_answer (v : Verdict) (capability : CapabilityId) (name : String)
    (serial serial' : Nat) :
    toldAnswer (v.answer capability name serial) =
      toldAnswer (v.answer capability name serial') := by
  cases v <;> rfl

/-- What is told of finds does not depend on the calls of factories before. -/
theorem map_told_finds (capability : CapabilityId) (verdict : String → Verdict)
    (calls calls' : Nat) (l : List Mention) :
    (finds capability verdict calls l).map Find.told =
      (finds capability verdict calls' l).map Find.told := by
  induction l generalizing calls calls' with
  | nil => rfl
  | cons m rest ih =>
    cases m with
    | error e => exact congrArg (Find.told (.failure e) :: ·) (ih calls calls')
    | ok candidate =>
      have hanswer := toldAnswer_answer (verdict candidate.name) capability candidate.name
        (calls + 1) (calls' + 1)
      rw [finds, finds, List.map_cons, List.map_cons, ih _ (calls' + _)]
      exact congrArg (fun answer => (some candidate.name, answer) :: _) hanswer

/-! ### Finds in front -/

theorem providedIn_append (front rest : List Find) (m : Nat) :
    providedIn (front ++ rest) (front.length + m) =
      front.filterMap Find.provided? ++ providedIn rest m := by
  rw [providedIn, List.take_length_add_append, List.filterMap_append, providedIn]

theorem newAnswers_append (front rest : List Find) (m : Nat) :
    newAnswers (front ++ rest) (front.length + m) = newAnswers rest m := by
  rw [newAnswers, List.drop_length_add_append, newAnswers]

/-- A pass yields the providers in front, and then what it yields behind them. -/
theorem passAnswers_append (front rest : List Find) (m : Nat) :
    passAnswers (front ++ rest) (front.length + m) =
      replayed (front.filterMap Find.provided?) ++ passAnswers rest m := by
  rw [passAnswers, providedIn_append, newAnswers_append, replayed, List.map_append,
    List.append_assoc]
  rfl

/-- The requests for the providers in front consume nothing. -/
theorem consumedAfter_append (front rest : List Find) (m n : Nat) :
    consumedAfter (front ++ rest) (front.length + m) n =
      front.length + consumedAfter rest m (n - (front.filterMap Find.provided?).length) := by
  rw [consumedAfter, providedIn_append, newAnswers_append, List.length_append, consumedAfter]
  omega

/-- Instances of names that were handed out are what has been found among these names. -/
theorem exists_past {entries : List (String × Provider)} {returned : List String}
    (h : (entries.map Prod.fst).Sublist returned) (e : DiscoveryError) :
    ∃ past : List Find, past.filterMap Find.provided? = entries ∧
      past.filterMap Find.name? = returned := by
  induction returned generalizing entries with
  | nil =>
    obtain rfl := List.map_eq_nil_iff.mp (List.sublist_nil.mp h)
    exact ⟨[], rfl, rfl⟩
  | cons name rest ih =>
    rcases List.sublist_cons_iff.mp h with hrest | ⟨names, hnames, hrest⟩
    · obtain ⟨past, hentries, hreturned⟩ := ih hrest
      exact ⟨.named name (.error e) :: past, hentries, congrArg (name :: ·) hreturned⟩
    · obtain ⟨slot, slots, rfl, rfl, rfl⟩ := List.map_eq_cons_iff.mp hnames
      obtain ⟨past, hentries, hreturned⟩ := ih hrest
      exact ⟨.named slot.1 (.ok slot.2) :: past, congrArg (slot :: ·) hentries,
        congrArg (slot.1 :: ·) hreturned⟩

/-! ### Answers besides one -/

/-- A list **without** the member in a place, if there is such a place. -/
def without {α : Type} (place : Option Nat) (l : List α) : List α :=
  match place with
  | none => l
  | some j => l.eraseIdx j

/-- The number of requests that give a number of answers besides the one in a place. -/
def requestsBesides (place : Option Nat) (n : Nat) : Nat :=
  match place with
  | none => n
  | some j => if n ≤ j then n else n + 1

/-- The first answers without the one in a place are as many first answers of the list without
it. -/
theorem map_getElem?_eq_eraseIdx {α : Type} (front : List α) (a : α) (back : List α) (n : Nat) :
    (List.range n).map (fun k => (front ++ back)[k]?) =
      ((List.range (requestsBesides (some front.length) n)).map
        fun k => (front ++ a :: back)[k]?).eraseIdx front.length := by
  rw [requestsBesides]
  split
  · rename_i hle
    rw [List.eraseIdx_of_length_le (by simpa using hle)]
    refine List.map_congr_left fun k hk => ?_
    have hlt : k < front.length := Nat.lt_of_lt_of_le (List.mem_range.mp hk) hle
    rw [List.getElem?_append_left hlt, List.getElem?_append_left hlt]
  · rename_i hgt
    -- The place is among the answers, so those behind it come one request later.
    have hanswer : ∀ k, (if k < front.length then (front ++ a :: back)[k]?
        else (front ++ a :: back)[k + 1]?) = (front ++ back)[k]? := fun k => by
      split
      · rename_i hlt
        rw [List.getElem?_append_left hlt, List.getElem?_append_left hlt]
      · rename_i hge
        rw [List.getElem?_append_right (by omega), List.getElem?_append_right (by omega),
          Nat.sub_add_comm (by omega), List.getElem?_cons_succ]
    refine List.ext_getElem? fun k => ?_
    rw [List.getElem?_eraseIdx, List.getElem?_map, List.getElem?_map, List.getElem?_map]
    rcases Nat.lt_or_ge k n with hlt | hge
    · rw [List.getElem?_range hlt, List.getElem?_range (by omega), List.getElem?_range (by omega),
        Option.map_some, Option.map_some, Option.map_some, ← hanswer, apply_ite some]
    · rw [List.getElem?_eq_none (by simpa using hge), if_neg (by omega),
        List.getElem?_eq_none (by simpa using hge)]
      rfl

end ProviderDiscovery
