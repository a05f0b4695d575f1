import Mathlib.Control.Monad.Basic
import ProviderDiscovery.Proofs.Discovery.Finds

/-!
# Passes refine the list of finds

Between two reloads passes are begun and dropped at any point. A pass first replays the providers
among the finds that have been consumed, and then consumes finds itself until one of them is an
error. So all answers can be told from the list of finds and the lengths of the passes: the number
of finds that have been consumed is the only state.
-/

namespace ProviderDiscovery

/-! ### The answers of a pass, told in advance -/

/-- The answers up to the first error, with it. -/
def throughError {ε α : Type} : List (Except ε α) → List (Except ε α)
  | [] => []
  | .error e :: _ => [.error e]
  | .ok a :: rest => .ok a :: throughError rest

/-- The answers that replay instances. -/
def replayed (entries : List (String × Provider)) : List (Except DiscoveryError Provider) :=
  entries.map fun slot => .ok slot.2

/-- The new answers of a pass when a number of finds have been consumed before. -/
def newAnswers (all : List Find) (i : Nat) : List (Except DiscoveryError Provider) :=
  throughError ((all.drop i).map Find.answer)

/-- The providers among the finds that have been consumed, by name. -/
def providedIn (all : List Find) (i : Nat) : List (String × Provider) :=
  (all.take i).filterMap Find.provided?

/-- All that a pass **yields** when a number of finds have been consumed before. -/
def passAnswers (all : List Find) (i : Nat) : List (Except DiscoveryError Provider) :=
  replayed (providedIn all i) ++ newAnswers all i

/-- The number of finds that have been **consumed** after a pass of so many requests. -/
def consumedAfter (all : List Find) (i n : Nat) : Nat :=
  i + min (n - (providedIn all i).length) (newAnswers all i).length

theorem newAnswers_of_none {all : List Find} {i : Nat} (h : all[i]? = none) :
    newAnswers all i = [] := by
  rw [newAnswers, List.drop_eq_nil_of_le (List.getElem?_eq_none_iff.mp h)]
  rfl

theorem newAnswers_of_error {all : List Find} {i : Nat} {f : Find} {e : DiscoveryError}
    (h : all[i]? = some f) (hf : f.answer = .error e) : newAnswers all i = [.error e] := by
  obtain ⟨hlt, hget⟩ := List.getElem?_eq_some_iff.mp h
  rw [newAnswers, List.drop_eq_getElem_cons hlt, hget, List.map_cons, hf, throughError]

theorem newAnswers_of_ok {all : List Find} {i : Nat} {f : Find} {provider : Provider}
    (h : all[i]? = some f) (hf : f.answer = .ok provider) :
    newAnswers all i = .ok provider :: newAnswers all (i + 1) := by
  obtain ⟨hlt, hget⟩ := List.getElem?_eq_some_iff.mp h
  rw [newAnswers, List.drop_eq_getElem_cons hlt, hget, List.map_cons, hf, throughError, newAnswers]

/-- The first members of a list, and `none` behind its end. -/
theorem map_getElem?_range_succ {α : Type} (l : List α) (n : Nat) :
    (List.range (n + 1)).map (fun k => l[k]?) =
      l.head? :: (List.range n).map fun k => l.tail[k]? := by
  rw [List.range_succ_eq_map, List.map_cons, List.map_map, List.head?_eq_getElem?]
  simp [Function.comp_def]

theorem map_getElem?_range_nil {α : Type} (n : Nat) :
    (List.range n).map (fun k => ([] : List α)[k]?) = List.replicate n none := by
  simp [List.map_const']

/-! ### One pass -/

/-- A number of **requests** to the pass in hand. -/
def Operation.requests (n : Nat) : List Operation := List.replicate n .next

/-- A **pass** that is dropped after a number of requests. -/
def Operation.pass (n : Nat) : List Operation := .iterate :: requests n

namespace Session

theorem after_requests_succ (s : Session) (n : Nat) :
    s.after (Operation.requests (n + 1)) = s.next.after (Operation.requests n) := by
  rw [Operation.requests, List.replicate_succ]
  rfl

/-- A request that takes no step of the discovery. -/
theorem next_of_replay {s : Session} {p p' : Pass}
    {answer : Option (Except DiscoveryError Provider)} (hp : s.pass = some p)
    (hrun : (p.next s.discovery).run s.world = ((answer, p', s.discovery), s.world)) :
    s.next = { s with pass := some p', answers := s.answers ++ [answer] } := by
  have hnext := next_of_run hp (hrun.trans (by rw [World.after_nil]))
  rw [hnext, World.after_nil, List.append_nil]

/-- A pass that has ended answers `none` and changes nothing. -/
theorem after_requests_of_ended {s : Session} {p : Pass} (hp : s.pass = some p)
    (hended : p.ended = true) (n : Nat) :
    s.after (Operation.requests n) =
      { s with answers := s.answers ++ List.replicate n none } := by
  induction n generalizing s with
  | zero => simp [Operation.requests, after]
  | succ n ih =>
    rw [after_requests_succ, next_of_replay hp (Pass.run_next_of_ended hended _ _), ih rfl, hp,
      List.append_assoc]
    rfl

variable {verdict : String → Verdict} {all : List Find}

/-- Requests to a pass at the end of the instances are answered by the finds up to the first
error. -/
theorem after_requests_of_end (n : Nat) {s : Session} {p : Pass} {i : Nat} (hp : s.pass = some p)
    (hopen : p.ended = false) (hend : p.position = s.discovery.instances.entries.length)
    (h : Consumed verdict all i s.discovery s.world) :
    (s.after (Operation.requests n)).answers =
        s.answers ++ (List.range n).map (fun k => (newAnswers all i)[k]?) ∧
      Consumed verdict all (i + min n (newAnswers all i).length)
        (s.after (Operation.requests n)).discovery (s.after (Operation.requests n)).world := by
  -- The induction follows the requests: each one consumes a find, as long as the pass is open.
  induction n generalizing s p i with
  | zero =>
    refine ⟨(List.append_nil _).symm, ?_⟩
    rw [Nat.zero_min]
    exact h
  | succ n ih =>
    have hslot : s.discovery.instances.entries[p.position]? = none :=
      List.getElem?_eq_none (Nat.le_of_eq hend.symm)
    obtain ⟨d', es, hrun, hd⟩ := h.advance
    have hnext := next_of_run hp (Pass.run_next_of_advance hopen hslot hrun)
    rw [after_requests_succ, hnext, map_getElem?_range_succ]
    cases hfind : all[i]? with
    | none =>
      rw [hfind] at hd
      rw [newAnswers_of_none hfind, after_requests_of_ended rfl rfl, List.tail_nil,
        map_getElem?_range_nil]
      exact ⟨List.append_assoc .., hd⟩
    | some f =>
      rw [hfind] at hd
      cases hf : f.answer with
      | error e =>
        have hstep : Consumed.stepAnswer (some f) = .error e := by
          rw [Consumed.stepAnswer, hf]
          rfl
        rw [newAnswers_of_error hfind hf, hstep, after_requests_of_ended rfl rfl, List.tail_cons,
          map_getElem?_range_nil, List.length_singleton, Nat.min_eq_right (Nat.le_add_left 1 n)]
        exact ⟨List.append_assoc .., hd⟩
      | ok provider =>
        have hstep : Consumed.stepAnswer (some f) = .ok (some provider) := by
          rw [Consumed.stepAnswer, hf]
          rfl
        rw [newAnswers_of_ok hfind hf, hstep]
        obtain ⟨hanswers, hconsumed⟩ := ih
          (s := ⟨d', s.world.after es, some { p with position := d'.instances.size },
            s.answers ++ [some (.ok provider)], s.events ++ es⟩) rfl hopen rfl hd
        refine ⟨?_, ?_⟩
        · refine hanswers.trans ?_
          rw [List.append_assoc]
          rfl
        · have hcount : i + min (n + 1) (newAnswers all (i + 1)).length.succ =
              i + 1 + min n (newAnswers all (i + 1)).length := by omega
          rw [List.length_cons, hcount]
          exact hconsumed

/-- **Requests to an open pass** are answered by the instances from its position on, and then by
the finds up to the first error. -/
theorem after_requests_of_open (n : Nat) {s : Session} {p : Pass} {i : Nat}
    (hp : s.pass = some p) (hopen : p.ended = false)
    (hposition : p.position ≤ s.discovery.instances.entries.length)
    (h : Consumed verdict all i s.discovery s.world) :
    (s.after (Operation.requests n)).answers = s.answers ++ (List.range n).map (fun k =>
        (replayed (s.discovery.instances.entries.drop p.position) ++ newAnswers all i)[k]?) ∧
      Consumed verdict all
        (i + min (n - (s.discovery.instances.entries.length - p.position))
          (newAnswers all i).length)
        (s.after (Operation.requests n)).discovery (s.after (Operation.requests n)).world := by
  -- The induction follows the requests: each one replays an instance, as long as there are some.
  induction n generalizing s p with
  | zero =>
    refine ⟨(List.append_nil _).symm, ?_⟩
    rw [Nat.zero_sub, Nat.zero_min]
    exact h
  | succ n ih =>
    cases hslot : s.discovery.instances.entries[p.position]? with
    | some slot =>
      obtain ⟨hlt, hget⟩ := List.getElem?_eq_some_iff.mp hslot
      have hnext := next_of_replay hp (Pass.run_next_of_slot hopen hslot s.world)
      obtain ⟨hanswers, hconsumed⟩ := ih (s := s.next) (congrArg Session.pass hnext) hopen
        (by rw [hnext]; exact hlt) (by rw [hnext]; exact h)
      rw [after_requests_succ, map_getElem?_range_succ]
      rw [hnext] at hanswers hconsumed ⊢
      refine ⟨?_, ?_⟩
      · rw [hanswers, List.drop_eq_getElem_cons hlt, hget, List.append_assoc]
        rfl
      · have hleft : n + 1 - (s.discovery.instances.entries.length - p.position) =
            n - (s.discovery.instances.entries.length - (p.position + 1)) := by omega
        rw [hleft]
        exact hconsumed
    | none =>
      have hend : p.position = s.discovery.instances.entries.length :=
        Nat.le_antisymm hposition (List.getElem?_eq_none_iff.mp hslot)
      rw [hend, List.drop_length, Nat.sub_self, Nat.sub_zero]
      exact after_requests_of_end (n + 1) hp hopen hend h

/-! ### Any number of passes -/

/-- A pass yields what was told in advance, and consumes as many finds. -/
theorem after_pass (n : Nat) {s : Session} {i : Nat}
    (h : Consumed verdict all i s.discovery s.world) :
    (s.after (Operation.pass n)).answers =
        (List.range n).map (fun k => (passAnswers all i)[k]?) ∧
      Consumed verdict all (consumedAfter all i n) (s.after (Operation.pass n)).discovery
        (s.after (Operation.pass n)).world := by
  have hpass := after_requests_of_open n (s := s.step .iterate) (p := .start) rfl rfl
    (Nat.zero_le _) h
  have hentries : (s.step .iterate).discovery.instances.entries = providedIn all i := h.entries
  rw [hentries] at hpass
  exact hpass

/-- Passes, one after the other, consume finds. -/
theorem after_passes (passes : List Nat) {s : Session} {i : Nat}
    (h : Consumed verdict all i s.discovery s.world) :
    Consumed verdict all (passes.foldl (consumedAfter all) i)
      (s.after (passes.flatMap Operation.pass)).discovery
      (s.after (passes.flatMap Operation.pass)).world := by
  induction passes generalizing s i with
  | nil => exact h
  | cons n rest ih =>
    rw [List.flatMap_cons, after_append]
    exact ih (after_pass n h).2

end Session

/-- A discovery is **fresh** when nothing has been looked at since its start or its last
reload. -/
structure Discovery.Fresh (d : Discovery) : Prop where
  entries : d.instances.entries = []
  candidates : d.candidates = .start d.capability d.scope

/-- A discovery is fresh at its start. -/
theorem Discovery.fresh_start (capability : CapabilityId) (contract : Contract) (scope : Scope)
    (resolver : Resolver) (authority : Authority) :
    (Discovery.start capability contract scope resolver authority).Fresh :=
  ⟨rfl, rfl⟩

/-- A discovery is fresh after each reload. -/
theorem Session.fresh_step_reload (s : Session) : (s.step .reload).discovery.Fresh := ⟨rfl, rfl⟩

/-- All that a discovery can **find**: the finds among the first mentions in resources. -/
def Discovery.allFinds (d : Discovery) (verdict : String → Verdict) (w : World)
    (rs : List Resource) : List Find :=
  finds d.capability verdict w.constructed.length
    (firstMentions (fun _ => false) (mentions d.capability w.files rs))

/-- A fresh discovery has consumed nothing. -/
theorem Consumed.zero {d : Discovery} {w : World} {rs : List Resource} {verdict : String → Verdict}
    (hfresh : d.Fresh) (ha : d.authority = .unrestricted)
    (hlocate : ((d.scope.locate d.capability).run.run w).1 = .ok rs)
    (hverdict : ∀ asked calls name,
      d.resolver.verdict d.contract w.registry asked calls name = verdict name) :
    Consumed verdict (d.allFinds verdict w rs) 0 d w := by
  refine ⟨Nat.zero_le _, hfresh.entries, ?_, ?_, ?_, ha ▸ Authority.permitsFrom_unrestricted w,
    hverdict, rs, ?_, ?_⟩
  · rw [hfresh.candidates]
    rfl
  · rw [hfresh.candidates]
    rfl
  · rw [hfresh.candidates]
    rfl
  · rw [hfresh.candidates, ha]
    exact hlocate
  · rw [hfresh.candidates, Candidates.ahead_start]
    rfl

/-- **Passes refine the list of finds.** Let the discovery of a session be fresh and without
authority, let its scope be able to say which resources it has, and let each name have one verdict.
After any passes, each dropped after any number of requests, a first part of all finds has been
consumed: the instances are its providers and the names handed out are its names, in order. The
next pass yields these instances, then the finds behind that part up to the first error, and then
nothing any more. -/
theorem Session.passes_refine_finds {s : Session} {w : World} {rs : List Resource}
    {verdict : String → Verdict} (hfresh : s.discovery.Fresh)
    (htoken : s.discovery.authority.token? = none)
    (hlocate : (s.discovery.scope.locate s.discovery.capability).run.run s.world = (.ok rs, w))
    (hverdict : ∀ asked calls name,
      s.discovery.resolver.verdict s.discovery.contract s.world.registry asked calls name =
        verdict name)
    (passes : List Nat) :
    let all := s.discovery.allFinds verdict s.world rs
    let i := passes.foldl (consumedAfter all) 0
    let t := s.after (passes.flatMap Operation.pass)
    i ≤ all.length ∧
      t.discovery.instances.entries = (all.take i).filterMap Find.provided? ∧
      t.discovery.candidates.returned = (all.take i).filterMap Find.name? ∧
      ∀ n, (t.after (Operation.pass n)).answers =
        (List.range n).map fun k => (passAnswers all i)[k]? := by
  intro all i t
  have ha : s.discovery.authority = .unrestricted := by
    cases hauthority : s.discovery.authority with
    | unrestricted => rfl
    | held token party =>
      rw [hauthority] at htoken
      cases htoken
  have hzero : Consumed verdict all 0 s.discovery s.world :=
    .zero hfresh ha (congrArg Prod.fst hlocate) hverdict
  have h : Consumed verdict all i t.discovery t.world := Session.after_passes passes hzero
  exact ⟨h.le_length, h.entries, h.returned, fun n => (Session.after_pass n h).1⟩

/-- Two resources: one with `A` and `B`, one with `B` and `C`. -/
def twoResources : List Resource :=
  [.ofBytes ⟨"1"⟩ [0x41, 0x0a, 0x42], .ofBytes ⟨"2"⟩ [0x42, 0x0a, 0x43]]

/-- A registry that can make an `A` and a `C`, but no `B`. -/
def mixedTypes : Registry :=
  Registry.registerAll ∅ [
    ⟨"A", [(⟨"Codec"⟩, ⟨⟨1⟩, "a", fun _ => .made⟩)]⟩,
    ⟨"B", [(⟨"Codec"⟩, ⟨⟨2⟩, "b", fun _ => .failed "broken"⟩)]⟩,
    ⟨"C", [(⟨"Codec"⟩, ⟨⟨3⟩, "c", fun _ => .made⟩)]⟩]

/-- A scope that has these resources. -/
def twoScope : Scope := .party ⟨⟨0⟩, "two", fun _ _ => .ok twoResources⟩

/-- The third pass gets `C`, behind the error of `B` at which the second pass ended. -/
theorem Session.passes_twoResources :
    ((start (.start ⟨"x.Codec"⟩ ⟨"Codec"⟩ twoScope .registry .unrestricted)
        (.fresh ∅ mixedTypes)).after
          ([1, 3].flatMap Operation.pass)).discovery.instances.entries = [("A", ⟨"a", 1⟩)] ∧
      (((start (.start ⟨"x.Codec"⟩ ⟨"Codec"⟩ twoScope .registry .unrestricted)
        (.fresh ∅ mixedTypes)).after ([1, 3].flatMap Operation.pass)).after
          (Operation.pass 3)).answers = [some (.ok ⟨"a", 1⟩), some (.ok ⟨"c", 3⟩), none] := by
  have hlocate : (twoScope.locate ⟨"x.Codec"⟩).run.run (.fresh ∅ mixedTypes) = (.ok twoResources,
      (World.fresh ∅ mixedTypes).after
        [.asked "two" "META-INF/services/x.Codec", .probed ⟨0⟩]) := rfl
  have hverdict : ∀ asked calls name,
      Resolver.registry.verdict ⟨"Codec"⟩ mixedTypes asked calls name =
        Resolver.registry.verdict ⟨"Codec"⟩ mixedTypes 0 (fun _ => 0) name := by
    intro asked calls name
    by_cases hA : name = "A"
    · rw [hA]
      rfl
    by_cases hB : name = "B"
    · rw [hB]
      rfl
    by_cases hC : name = "C"
    · rw [hC]
      rfl
    have hnone : mixedTypes.resolve name = none := by
      rw [mixedTypes, Registry.registerAll, List.foldl_cons, List.foldl_cons, List.foldl_cons,
        List.foldl_nil, Registry.resolve_put_of_ne _ hC, Registry.resolve_put_of_ne _ hB,
        Registry.resolve_put_of_ne _ hA]
      rfl
    simp only [Resolver.verdict, Resolver.typeIn, hnone]
  obtain ⟨-, hentries, -, hanswers⟩ := Session.passes_refine_finds
    (s := start (.start ⟨"x.Codec"⟩ ⟨"Codec"⟩ twoScope .registry .unrestricted)
      (.fresh ∅ mixedTypes))
    (Discovery.fresh_start ..) rfl hlocate hverdict [1, 3]
  refine ⟨hentries.trans ?_, (hanswers 3).trans ?_⟩
  · decide +kernel
  · decide +kernel

end ProviderDiscovery
