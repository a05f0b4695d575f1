import ProviderDiscovery.Proofs.Discovery.Told

/-!
# A lost name

Two sessions come to the same point, with the same finds still to come; but one of them has accepted
a name that the other has lost. If the acceptance made a provider, every later pass of the first
session replays it in its place; if not, it is gone already. Besides that provider the two sessions
yield the same from then on, so a pass that gets to its place takes one request more.
-/

namespace ProviderDiscovery

/-! ### Sessions besides one place -/

/-- The place that a verdict gives a name in the table, if it provides for it. -/
def Verdict.place? (v : Verdict) (next : Nat) : Option Nat :=
  match v with
  | .provided _ => some next
  | _ => none

/-- Sessions are the **same besides** a place when their instances and their next passes tell the
same, but for what the second session has in that place. -/
structure Session.SameBesides (place : Option Nat) (s s' : Session) : Prop where
  instances : s.discovery.instances.entries.map toldSlot =
    without place (s'.discovery.instances.entries.map toldSlot)
  answers : ∀ n, (s.after (Operation.pass n)).answers.map (Option.map toldAnswer) =
    without place ((s'.after (Operation.pass (requestsBesides place n))).answers.map
      (Option.map toldAnswer))

namespace Verdict

variable {α : Type}

/-- A verdict gives the name a place for the one provider that it makes, or makes none. -/
theorem place?_cases (v : Verdict) (name : String) (serial : Nat) :
    (∃ slot, v.made name serial = [slot] ∧ ∀ next, v.place? next = some next) ∨
      v.made name serial = [] ∧ ∀ next, v.place? next = none := by
  cases v with
  | provided value => exact .inl ⟨_, rfl, fun _ => rfl⟩
  | notFound => exact .inr ⟨rfl, fun _ => rfl⟩
  | notAssignable => exact .inr ⟨rfl, fun _ => rfl⟩
  | failed cause => exact .inr ⟨rfl, fun _ => rfl⟩

/-- Without what a verdict has made there is what was there before, and what came later. -/
theorem append_eq_without (v : Verdict) (name : String) (serial : Nat)
    (f : String × Provider → α) (front back : List α) :
    front ++ back =
      without (v.place? front.length) (front ++ (v.made name serial).map f ++ back) := by
  rcases v.place?_cases name serial with ⟨slot, hmade, hplace⟩ | ⟨hmade, hplace⟩
  · rw [hmade, hplace, without, List.append_assoc,
      List.eraseIdx_append_of_length_le (Nat.le_refl _), Nat.sub_self]
    rfl
  · rw [hmade, hplace, without, List.map_nil, List.append_nil]

/-- The first answers besides what a verdict has made. -/
theorem map_getElem?_eq_without (v : Verdict) (name : String) (serial : Nat)
    (f : String × Provider → α) (front back : List α) (n : Nat) :
    (List.range n).map (fun k => (front ++ back)[k]?) =
      without (v.place? front.length) ((List.range (requestsBesides (v.place? front.length) n)).map
        fun k => (front ++ (v.made name serial).map f ++ back)[k]?) := by
  rcases v.place?_cases name serial with ⟨slot, hmade, hplace⟩ | ⟨hmade, hplace⟩
  · have hanswers := map_getElem?_eq_eraseIdx front (f slot) back n
    rw [List.append_cons] at hanswers
    rw [hmade, hplace]
    exact hanswers
  · rw [hmade, hplace, without, requestsBesides, List.map_nil, List.append_nil]

/-- A pass takes one request more for what a verdict has made, if it gets that far. -/
theorem requestsBesides_sub (v : Verdict) (name : String) (serial j n : Nat) :
    requestsBesides (v.place? j) n - (j + (v.made name serial).length) = n - j := by
  rcases v.place?_cases name serial with ⟨slot, hmade, hplace⟩ | ⟨hmade, hplace⟩
  · rw [hmade, hplace, requestsBesides, List.length_singleton]
    split <;> omega
  · rw [hmade, hplace, requestsBesides, List.length_nil, Nat.add_zero]

end Verdict

/-! ### The finds behind a lost name -/

/-- A discovery that has located its resources has consumed what was found before, and has the finds
in what it has still to read behind it. -/
theorem Consumed.of_front {verdict : String → Verdict} {d : Discovery} {w : World}
    {front : List Find} {rs : List Resource}
    (hentries : d.instances.entries = front.filterMap Find.provided?)
    (hreturned : d.candidates.returned = front.filterMap Find.name?)
    (hupcoming : d.candidates.upcoming = none)
    (hcapability : d.candidates.capability = d.capability)
    (hunread : d.candidates.unread = some rs) (hpermits : d.authority.PermitsFrom w)
    (hverdict : ∀ asked calls name,
      d.resolver.verdict d.contract w.registry asked calls name = verdict name) :
    Consumed verdict (front ++ finds d.capability verdict w.constructed.length
      (d.candidates.ahead (fun _ => false) w.files rs)) front.length d w where
  le_length := by
    rw [List.length_append]
    exact Nat.le_add_right ..
  entries := by rw [List.take_left, hentries]
  returned := by rw [List.take_left, hreturned]
  upcoming := hupcoming
  capability := hcapability
  permits := hpermits
  verdict_eq := hverdict
  ahead := ⟨rs, by rw [Candidates.unopened, hunread], List.drop_left.symm⟩

section Behind

variable {entries : List (String × Provider)} {lost kept rest rest' : List Find} {v : Verdict}
  {name : String} {serial : Nat} (hlost : lost.filterMap Find.provided? = entries)
  (hkept : kept.filterMap Find.provided? = entries ++ v.made name serial)
  (hrest : rest.map Find.told = rest'.map Find.told)
include hlost hkept hrest

/-- Passes consume as many finds behind a name that was kept as behind one that was lost. -/
theorem exists_consumedAfter_passes (passes : List Nat) (m : Nat) :
    let place := v.place? entries.length
    ∃ m', passes.foldl (consumedAfter (lost ++ rest)) (lost.length + m) = lost.length + m' ∧
      (passes.map (requestsBesides place)).foldl (consumedAfter (kept ++ rest')) (kept.length + m) =
        kept.length + m' := by
  intro place
  induction passes generalizing m with
  | nil => exact ⟨m, rfl, rfl⟩
  | cons n passes ih =>
    rw [List.map_cons, List.foldl_cons, List.foldl_cons, consumedAfter_append,
      consumedAfter_append, hlost, hkept, List.length_append, v.requestsBesides_sub,
      ← consumedAfter_eq_of_told hrest]
    exact ih _

/-- A pass behind a name that was lost tells the same as one behind a name that was kept, besides
the provider of that name. -/
theorem map_toldAnswer_pass (m n : Nat) :
    let place := v.place? entries.length
    (List.range n).map (fun k =>
        ((passAnswers (lost ++ rest) (lost.length + m)).map toldAnswer)[k]?) =
      without place ((List.range (requestsBesides place n)).map fun k =>
        ((passAnswers (kept ++ rest') (kept.length + m)).map toldAnswer)[k]?) := by
  intro place
  have hlength : ((replayed entries).map toldAnswer).length = entries.length := by
    rw [List.length_map, replayed, List.length_map]
  have hreplayed : replayed (entries ++ v.made name serial) =
      replayed entries ++ (v.made name serial).map fun slot => .ok slot.2 := by
    rw [replayed, replayed, List.map_append]
  rw [passAnswers_append, passAnswers_append, hlost, hkept, hreplayed, List.map_append,
    List.map_append, List.map_append, List.map_map, map_toldAnswer_passAnswers_eq hrest]
  have hanswers := v.map_getElem?_eq_without name serial
    (toldAnswer ∘ fun slot : String × Provider => .ok slot.2) ((replayed entries).map toldAnswer)
    ((passAnswers rest' m).map toldAnswer) n
  rw [hlength] at hanswers
  exact hanswers

/-- The instances behind a name that was lost are those behind a name that was kept, besides the
provider of that name. -/
theorem map_toldSlot_providedIn_behind (m : Nat) :
    (providedIn (lost ++ rest) (lost.length + m)).map toldSlot =
      without (v.place? entries.length)
        ((providedIn (kept ++ rest') (kept.length + m)).map toldSlot) := by
  have hbehind : (providedIn rest m).map toldSlot = (providedIn rest' m).map toldSlot := by
    rw [map_toldSlot_providedIn, map_toldSlot_providedIn, hrest]
  have hslots := v.append_eq_without name serial toldSlot (entries.map toldSlot)
    ((providedIn rest' m).map toldSlot)
  rw [List.length_map] at hslots
  rw [providedIn_append, providedIn_append, hlost, hkept, List.map_append, List.map_append,
    List.map_append, hbehind]
  exact hslots

end Behind

/-! ### Sessions behind a lost name -/

/-- **A session that has lost a name** yields what it would have yielded if the name had got the
answer of its verdict, besides the provider of that name. -/
theorem Session.sameBesides_after_passes {verdict : String → Verdict} {s s' : Session}
    {past rest rest' : List Find} {v : Verdict} {capability : CapabilityId} {name : String}
    {serial : Nat} {e : DiscoveryError}
    (h : let lost := past ++ [.named name (.error e)]
      Consumed verdict (lost ++ rest) lost.length s.discovery s.world)
    (h' : let kept := past ++ [.named name (v.answer capability name serial)]
      Consumed verdict (kept ++ rest') kept.length s'.discovery s'.world)
    (hrest : rest.map Find.told = rest'.map Find.told) (passes : List Nat) :
    let place := v.place? (past.filterMap Find.provided?).length
    SameBesides place (s.after (passes.flatMap Operation.pass))
      (s'.after ((passes.map (requestsBesides place)).flatMap Operation.pass)) := by
  intro place
  have hlost : (past ++ [Find.named name (.error e)]).filterMap Find.provided? =
      past.filterMap Find.provided? := by
    rw [List.filterMap_append]
    exact List.append_nil _
  have hkept : (past ++ [Find.named name (v.answer capability name serial)]).filterMap
      Find.provided? = past.filterMap Find.provided? ++ v.made name serial := by
    rw [List.filterMap_append, filterMap_singleton, Find.toList_provided?_named]
  obtain ⟨m, hm, hm'⟩ := exists_consumedAfter_passes hlost hkept hrest passes 0
  have hpasses := after_passes passes h
  have hpasses' := after_passes (passes.map (requestsBesides place)) h'
  rw [Nat.add_zero] at hm hm'
  rw [hm] at hpasses
  rw [hm'] at hpasses'
  have htold : ∀ (l : List (Except DiscoveryError Provider)) (n : Nat),
      ((List.range n).map fun k => l[k]?).map (Option.map toldAnswer) =
        (List.range n).map fun k => (l.map toldAnswer)[k]? := fun l n => by
    rw [List.map_map]
    exact List.map_congr_left fun k _ => (List.getElem?_map ..).symm
  refine ⟨?_, fun n => ?_⟩
  · rw [hpasses.entries, hpasses'.entries]
    exact map_toldSlot_providedIn_behind hlost hkept hrest m
  · rw [(after_pass n hpasses).1, (after_pass _ hpasses').1, htold, htold]
    exact map_toldAnswer_pass hlost hkept hrest m n

end ProviderDiscovery
