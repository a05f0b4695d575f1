import ProviderDiscovery.Proofs.Discovery.Openings

/-!
# Only new names are accepted

A discovery keeps two records of names: the instances, and the names that have been handed out. A
name gets its instance after it has been handed out, so the second record covers the first
(`Discovery.Coherent`), whatever a step of the discovery comes to. So a name that is taken up has no
instance, and the search need not know the instances. To say so, a discovery is given another
`Treatment` of names with an instance. As long as new names are treated as ever, each step is the
same step (`Discovery.Coherent.advanceWith_eq`), and so is each run of operations
(`Session.Kept.afterWith_eq`).
-/

namespace ProviderDiscovery

/-! ### Names that are known because they were handed out -/

namespace Candidates

variable {known : String → Bool} {c : Candidates}

theorem returned_searchPending (known : String → Bool) (c : Candidates) (names : List String) :
    (c.searchPending known names).2.returned = c.returned := by
  rcases searchPending_cases known c names [] with ⟨hp, -⟩ | ⟨name, rest, resource, hp, -⟩
  all_goals rw [hp]

/-- Looking through pending names, it makes no difference to know names that were handed out. -/
theorem searchPending_of_known (h : ∀ name, known name → name ∈ c.returned)
    (names : List String) :
    c.searchPending known names = c.searchPending (fun _ => false) names := by
  induction names with
  | nil => rfl
  | cons name rest ih =>
    have hskip : c.isSkipped known name = c.isSkipped (fun _ => false) name :=
      congrFun (isSkipped_of_known h) name
    rw [searchPending, searchPending, hskip, ih]

/-- Nor does it make a difference to a search through resources. -/
theorem search_of_known (h : ∀ name, known name → name ∈ c.returned) (rs : List Resource) :
    search known rs c = search (fun _ => false) rs c := by
  induction rs generalizing c with
  | nil => rw [search, search, searchPending_of_known h]
  | cons r rest ih =>
    have hreturned := returned_searchPending (fun _ => false) c c.pending
    rw [search, search, searchPending_of_known h]
    generalize c.searchPending (fun _ => false) c.pending = searched at hreturned ⊢
    obtain ⟨found, c₁⟩ := searched
    cases found with
    | true => rfl
    | false =>
      refine bind_congr fun answer => ?_
      cases answer with
      | error e => rfl
      | ok names =>
        -- What has been handed out is the same when the next resource is searched.
        refine ih fun name hname => ?_
        rw [← hreturned] at h
        exact h name hname

theorem hasNext_of_known (h : ∀ name, known name → name ∈ c.returned) :
    c.hasNext known = c.hasNext fun _ => false := by
  simp only [hasNext, search_of_known h]

/-- A caller that knows some of the names that were handed out gets what a caller gets that knows
nothing. -/
theorem next_of_known (h : ∀ name, known name → name ∈ c.returned) :
    c.next known = c.next fun _ => false := by
  rw [next, next, hasNext_of_known h]

end Candidates

/-! ### Other treatments of names with an instance -/

/-- The table in which a name has an instance; if it has one already, **something else** is done. -/
def Instances.insertElse {α : Type} (clash : Instances α → String → α → α × Instances α)
    (c : Instances α) (name : String) (a : α) : α × Instances α :=
  if c.contains name then clash c name a else c.insert name a

/-- A **treatment** of names that have an instance. -/
structure Treatment where
  /-- The names that are known to whoever looks for candidates. -/
  known : Instances Provider → String → Bool
  /-- What becomes of a provider that was made for a name. -/
  keep : Instances Provider → String → Provider → Provider × Instances Provider

namespace Treatment

/-- The treatment that names get: those with an instance are known, and each keeps its first. -/
def usual : Treatment := ⟨Instances.contains, Instances.insert⟩

/-- A treatment **agrees on new names** when no name without an instance is known, and the provider
that was made for it is kept. -/
structure Agrees (t : Treatment) : Prop where
  known : ∀ i name, t.known i name → i.contains name
  keep : ∀ i name provider, i.contains name = false →
    t.keep i name provider = i.insert name provider

theorem agrees_usual : usual.Agrees := ⟨fun _ _ => id, fun _ _ _ _ => rfl⟩

/-- So does a treatment that knows names with an instance only, and does something else with
providers that are made for such names. -/
theorem agrees_insertElse (known : Instances Provider → String → Bool)
    (h : ∀ i name, known i name → i.contains name)
    (clash : Instances Provider → String → Provider → Provider × Instances Provider) :
    Agrees ⟨known, Instances.insertElse clash⟩ where
  known := h
  keep i name provider hnew := by
    change Instances.insertElse clash i name provider = _
    rw [Instances.insertElse, hnew, if_neg Bool.false_ne_true]

end Treatment

/-- Accepts a name, and keeps the provider in a given way. -/
def acceptWith (keep : Instances Provider → String → Provider → Provider × Instances Provider)
    (r : Resolver) (contract : Contract) (capability : CapabilityId) (name : String)
    (c : Instances Provider) : Action (Except DiscoveryError Provider × Instances Provider) := do
  match ← r.resolve name with
  | none => return (.error ⟨capability, .providerNotFound name⟩, c)
  | some type =>
    match type.factory? contract with
    | none => return (.error ⟨capability, .providerNotAssignable name⟩, c)
    | some factory =>
      match ← factory.call name with
      | .error cause => return (.error ⟨capability, .instantiationFailed name cause⟩, c)
      | .ok provider =>
        let (kept, c) := keep c name provider
        return (.ok kept, c)

namespace Discovery

/-- Looks for the next candidate under a treatment. -/
def nextCandidateWith (t : Treatment) (d : Discovery) :
    Action (Except DiscoveryError (Option Candidate) × Discovery) := do
  let (answer, candidates) ←
    d.authority.run d.capability (Candidates.next (t.known d.instances)) d.candidates
  return (answer.bind id, { d with candidates := candidates })

/-- Accepts the name of a candidate under a treatment. -/
def acceptNameWith (t : Treatment) (d : Discovery) (name : String) :
    Action (Except DiscoveryError Provider × Discovery) := do
  let (answer, instances) ← d.authority.run d.capability
    (acceptWith t.keep d.resolver d.contract d.capability name) d.instances
  return (answer.bind id, { d with instances := instances })

/-- Looks for the next provider under a treatment, and makes it. -/
def advanceWith (t : Treatment) (d : Discovery) :
    Action (Except DiscoveryError (Option Provider) × Discovery) := do
  match ← d.nextCandidateWith t with
  | (.error e, d) => return (.error e, d)
  | (.ok none, d) => return (.ok none, d)
  | (.ok (some candidate), d) =>
    record (.accepting candidate.name candidate.resource)
    let (answer, d) ← d.acceptNameWith t candidate.name
    return (answer.map some, d)

end Discovery

/-- The next provider of a pass over a discovery under a treatment. -/
def Pass.nextWith (t : Treatment) (p : Pass) (d : Discovery) :
    Action (Option (Except DiscoveryError Provider) × Pass × Discovery) := do
  if p.ended then return (none, p, d)
  else
    match d.instances.getIndex? p.position with
    | some (_, provider) => return (some (.ok provider), { p with position := p.position + 1 }, d)
    | none =>
      match ← d.advanceWith t with
      | (.ok (some provider), d) =>
        return (some (.ok provider), { p with position := d.instances.size }, d)
      | (.ok none, d) => return (none, { p with ended := true }, d)
      | (.error e, d) => return (some (.error e), { p with ended := true }, d)

namespace Session

/-- The session when the pass in hand has been asked for its next provider under a treatment. -/
def nextWith (t : Treatment) (s : Session) : Session :=
  match s.pass with
  | none => s
  | some p =>
    let ((answer, p, d), w) := (p.nextWith t s.discovery).run s.world
    ⟨d, w, some p, s.answers ++ [answer], s.events ++ w.eventsSince s.world⟩

/-- The session after one operation, under a treatment. -/
def stepWith (t : Treatment) (s : Session) : Operation → Session
  | .next => s.nextWith t
  | op => s.step op

/-- The session after a run of operations, under a treatment. -/
def afterWith (t : Treatment) (s : Session) (ops : List Operation) : Session :=
  ops.foldl (stepWith t) s

/-- The usual treatment is that of a session. -/
theorem afterWith_usual (s : Session) (ops : List Operation) :
    s.afterWith .usual ops = s.after ops := by
  have hstep : stepWith .usual = step := by
    funext s op
    cases op <;> rfl
  rw [afterWith, after, hstep]

end Session

/-! ### Instances and candidates -/

namespace Discovery

/-- Instances and candidates of a discovery are **coherent** when no candidate waits, and each name
that has an instance has been handed out. -/
structure Coherent (d : Discovery) : Prop where
  upcoming : d.candidates.upcoming = none
  returned : ∀ name, d.instances.contains name → name ∈ d.candidates.returned

namespace Coherent

variable {d : Discovery} {t : Treatment} {name : String}

/-- A **search** keeps them coherent, and finds a name that has no instance. -/
theorem nextCandidate (h : d.Coherent) (w : World) :
    ∃ answer c es, d.nextCandidate.run w = ((answer, { d with candidates := c }), w.after es) ∧
      Coherent { d with candidates := c } ∧
      ∀ candidate, answer = .ok (some candidate) →
        d.instances.contains candidate.name = false ∧ candidate.name ∈ c.returned := by
  obtain ⟨answer, c, es, handed, hrun, -, -, hupcoming, hreturned, hskipped, hhanded⟩ :=
    d.run_nextCandidate w h.upcoming
  refine ⟨answer, c, es, hrun, ⟨hupcoming, fun name hname => ?_⟩, fun candidate hanswer => ?_⟩
  · change name ∈ c.returned
    rw [hreturned]
    exact List.mem_append_left _ (h.returned name hname)
  · obtain rfl := hhanded candidate hanswer
    refine ⟨(Bool.or_eq_false_iff.mp (hskipped candidate.name rfl)).1, ?_⟩
    rw [hreturned]
    exact List.mem_append_right _ (List.mem_singleton_self _)

/-- An **acceptance** of a name that has been handed out keeps them coherent. -/
theorem acceptName (h : d.Coherent) (hnew : d.instances.contains name = false)
    (hname : name ∈ d.candidates.returned) (w : World) :
    ((d.acceptName name).run w).1.2.Coherent := by
  obtain ⟨answer, i, es, hrun, -, hcalled, hmade, hentries, -⟩ := d.run_acceptName w hnew
  rw [hrun]
  refine ⟨h.upcoming, fun other hother => ?_⟩
  have hmem : other ∈ i.entries.map Prod.fst := Instances.contains_iff.mp hother
  rw [hentries, List.map_append, List.mem_append] at hmem
  rcases hmem with hold | hmem
  · exact h.returned other (Instances.contains_iff.mpr hold)
  · obtain rfl := List.mem_singleton.mp ((hmade.trans hcalled).subset hmem)
    exact hname

/-! ### Steps under another treatment -/

/-- A search is the same under a treatment that agrees on new names. -/
theorem nextCandidateWith_eq (h : d.Coherent) (ht : t.Agrees) :
    d.nextCandidateWith t = d.nextCandidate := by
  have hknown : ∀ name, t.known d.instances name → name ∈ d.candidates.returned :=
    fun name hname => h.returned name (ht.known _ name hname)
  have hnext : d.candidates.next (t.known d.instances) =
      d.candidates.next d.instances.contains := by
    rw [Candidates.next_of_known hknown, Candidates.next_of_known h.returned]
  rw [nextCandidateWith, Discovery.nextCandidate, Authority.run_congr hnext]

/-- So is the acceptance of a name that has no instance. -/
theorem acceptNameWith_eq (ht : t.Agrees) (hnew : d.instances.contains name = false) :
    d.acceptNameWith t name = d.acceptName name := by
  have haccept : acceptWith t.keep d.resolver d.contract d.capability name d.instances =
      acceptWith Treatment.usual.keep d.resolver d.contract d.capability name d.instances := by
    simp only [acceptWith, ht.keep _ name _ hnew, Treatment.agrees_usual.keep _ name _ hnew]
  calc d.acceptNameWith t name
    _ = d.acceptNameWith .usual name := by
      rw [acceptNameWith, acceptNameWith, Authority.run_congr haccept]
    _ = d.acceptName name := rfl

/-- So is a whole **step**. -/
theorem advanceWith_eq (h : d.Coherent) (ht : t.Agrees) : d.advanceWith t = d.advance := by
  rw [advanceWith, advance, h.nextCandidateWith_eq ht]
  refine Action.bind_congr_of_answer fun w => ?_
  obtain ⟨answer, c, es, hrun, -, hfound⟩ := h.nextCandidate w
  rw [hrun]
  rcases answer with e | _ | candidate
  · rfl
  · rfl
  · obtain ⟨hnew, -⟩ := hfound candidate rfl
    simp only [acceptNameWith_eq (d := { d with candidates := c }) ht hnew]

end Coherent

end Discovery

/-- So is a request to a pass. -/
theorem Pass.nextWith_eq {t : Treatment} {d : Discovery} (h : d.Coherent) (ht : t.Agrees)
    (p : Pass) : p.nextWith t d = p.next d := by
  calc p.nextWith t d
    _ = p.nextWith .usual d := by
      simp only [nextWith, h.advanceWith_eq ht, h.advanceWith_eq Treatment.agrees_usual]
    _ = p.next d := rfl

/-! ### Whole sessions -/

namespace Session

variable {s : Session} {t : Treatment}

theorem Kept.coherent (hk : s.Kept) : s.discovery.Coherent :=
  ⟨hk.upcoming, fun _ => hk.mem_returned⟩

/-- Each operation leads to the same session. -/
theorem Kept.stepWith_eq (hk : s.Kept) (ht : t.Agrees) (op : Operation) :
    s.stepWith t op = s.step op := by
  cases op with
  | next =>
    calc s.nextWith t
      _ = s.nextWith .usual := by
        simp only [nextWith, Pass.nextWith_eq hk.coherent ht,
          Pass.nextWith_eq hk.coherent Treatment.agrees_usual]
      _ = s.next := rfl
  | _ => rfl

/-- **Each run of operations** leads to the same session under a treatment that agrees on new
names. -/
theorem Kept.afterWith_eq (hk : s.Kept) (ht : t.Agrees) (ops : List Operation) :
    s.afterWith t ops = s.after ops := by
  induction ops generalizing s with
  | nil => rfl
  | cons op rest ih =>
    rw [afterWith, List.foldl_cons, hk.stepWith_eq ht]
    exact ih (hk.step op)

/-- **Only new names are accepted.** Whatever is done in a session, and whatever the files, the
factories and the authority do meanwhile: no candidate waits, and each name with an instance has
been handed out. So it is between the search and the acceptance of a step as well, and a name that
the search finds has no instance. So a session goes through every run of operations just the same
when something else is done with a provider for a name that has an instance, whether the search
knows the names with an instance or knows no name at all. -/
theorem only_new_names_accepted (capability : CapabilityId) (contract : Contract) (scope : Scope)
    (resolver : Resolver) (authority : Authority) (w : World) (ops : List Operation) :
    let first := start (.start capability contract scope resolver authority) w
    let s := first.after ops
    s.discovery.Coherent ∧
      (∀ w₁,
        let found := (s.discovery.nextCandidate.run w₁).1
        found.2.Coherent ∧
          ∀ candidate, found.1 = .ok (some candidate) →
            found.2.instances.contains candidate.name = false ∧
              ∀ w₂, ((found.2.acceptName candidate.name).run w₂).1.2.Coherent) ∧
      (∀ any : Session, any.afterWith .usual ops = any.after ops) ∧
      ∀ clash,
        first.afterWith ⟨Instances.contains, Instances.insertElse clash⟩ ops = s ∧
          first.afterWith ⟨fun _ _ => false, Instances.insertElse clash⟩ ops = s := by
  intro first s
  have hfirst : first.Kept := kept_start capability contract scope resolver authority w
  have hcoherent : s.discovery.Coherent := (hfirst.after ops).coherent
  refine ⟨hcoherent, fun w₁ => ?_, fun any => any.afterWith_usual ops, fun clash => ⟨?_, ?_⟩⟩
  · obtain ⟨answer, c, es, hrun, hsearched, hfound⟩ := hcoherent.nextCandidate w₁
    rw [hrun]
    refine ⟨hsearched, fun candidate hanswer => ?_⟩
    obtain ⟨hnew, hreturned⟩ := hfound candidate hanswer
    exact ⟨hnew, hsearched.acceptName hnew hreturned⟩
  · exact hfirst.afterWith_eq (Treatment.agrees_insertElse _ (fun _ _ => id) clash) ops
  · have hagrees := Treatment.agrees_insertElse (fun _ _ => false) (fun _ _ => nofun) clash
    exact hfirst.afterWith_eq hagrees ops

/-- A scope in memory in which two files list `A` and `B`, and the second lists `C` as well. -/
def twoFiles : Scope := .memory "m" ⟨[("x.Codec", ["A\nB", "B\nA\nC"])]⟩ none

/-- When `A` has been made, and `B` has been made and withheld, both are skipped in the second file,
also by a search that knows no name; so what such a session would do with a second `A` makes no
difference. -/
theorem only_new_names_accepted_twoFiles :
    let first := start (.start ⟨"x.Codec"⟩ ⟨"Codec"⟩ twoFiles .registry (.capture withholding))
      (.fresh ∅ twoTypes)
    let ops : List Operation := [.iterate, .next, .next]
    let s := first.after ops
    let found := (s.discovery.nextCandidate.run s.world).1
    s.discovery.instances.names = ["A", "B"] ∧
      found.1 = .ok (some ⟨"C", ⟨"mem:m/META-INF/services/x.Codec#1"⟩⟩) ∧
      found.2.instances.contains "C" = false ∧
      first.afterWith
          ⟨fun _ _ => false, Instances.insertElse fun i _ provider => (provider, i.clear)⟩ ops =
        s := by
  have hnew := only_new_names_accepted ⟨"x.Codec"⟩ ⟨"Codec"⟩ twoFiles .registry
    (.capture withholding) (.fresh ∅ twoTypes) [.iterate, .next, .next]
  obtain ⟨-, hsearch, -, hwith⟩ := hnew
  refine ⟨by decide +kernel, by decide +kernel, ?_, (hwith _).2⟩
  exact ((hsearch _).2 ⟨"C", ⟨"mem:m/META-INF/services/x.Codec#1"⟩⟩ (by decide +kernel)).1

end Session

end ProviderDiscovery
