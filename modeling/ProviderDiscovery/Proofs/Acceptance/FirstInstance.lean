import ProviderDiscovery.Proofs.Acceptance
import ProviderDiscovery.Proofs.Instances

/-!
# Names keep their first instances

Names are accepted one after the other, for one contract and into one table of instances, and the
same name may come again. Three conditions decide on each acceptance: the type is known, it has a
factory for the contract, and this call of the factory makes a provider. `Resolver.Judges` says so
without the acceptance itself. An acceptance that fails leaves the table as it was
(`accepted_all_or_nothing`), so the table depends on the providers that were made and on nothing
else: it has the names in the order of their first providers, and these first providers
(`Instances.KeepsFirst`).
-/

namespace ProviderDiscovery

/-! ### The conditions of an acceptance -/

/-- How the type of a name, its factory and the call of the factory **judge** on the name in a
world. The first of the three conditions that is not met decides. A factory may throw in place of
failing; that is a failure like others. -/
inductive Resolver.Judges (r : Resolver) (contract : Contract) (w : World) (name : String) :
    Verdict → Prop where
  | notFound (ht : ((r.resolve name).run w).1 = none) : Judges r contract w name .notFound
  | notAssignable {t : ProviderType} (ht : ((r.resolve name).run w).1 = some t)
      (hf : t.factory? contract = none) : Judges r contract w name .notAssignable
  | failed {t : ProviderType} {f : Factory} {cause : String}
      (ht : ((r.resolve name).run w).1 = some t) (hf : t.factory? contract = some f)
      (h : f.outcome (((r.resolve name).run w).2.callCount f.handle) = .failed cause) :
      Judges r contract w name (.failed cause)
  | threw {t : ProviderType} {f : Factory} {thrown : Thrown}
      (ht : ((r.resolve name).run w).1 = some t) (hf : t.factory? contract = some f)
      (h : f.outcome (((r.resolve name).run w).2.callCount f.handle) = .threw thrown) :
      Judges r contract w name (.failed thrown.message)
  | provided {t : ProviderType} {f : Factory}
      (ht : ((r.resolve name).run w).1 = some t) (hf : t.factory? contract = some f)
      (h : f.outcome (((r.resolve name).run w).2.callCount f.handle) = .made) :
      Judges r contract w name (.provided f.value)

/-- There is one judgement on a name, the verdict. -/
theorem Resolver.judges_iff {r : Resolver} {contract : Contract} {w : World} {name : String}
    {v : Verdict} : r.Judges contract w name v ↔ v = r.verdictIn contract w name := by
  have hrun := r.run_resolve_eq name w
  have htype : r.typeIn w.registry (r.asked w) name = ((r.resolve name).run w).1 := by rw [hrun]
  have hcount : (w.after (r.inquiry name)).callCount = ((r.resolve name).run w).2.callCount := by
    rw [hrun]
  rw [verdictIn, verdict, htype, hcount]
  constructor
  · intro h
    cases h with
    | notFound ht => rw [ht]
    | notAssignable ht hf => simp only [ht, hf]
    | failed ht hf h => simp only [ht, hf, h]
    | threw ht hf h => simp only [ht, hf, h]
    | provided ht hf h => simp only [ht, hf, h]
  · rintro rfl
    cases ht : ((r.resolve name).run w).1 with
    | none => exact .notFound ht
    | some t =>
      simp only
      cases hf : t.factory? contract with
      | none => exact .notAssignable ht hf
      | some f =>
        simp only
        cases h : f.outcome (((r.resolve name).run w).2.callCount f.handle) with
        | made => exact .provided ht hf h
        | failed cause => exact .failed ht hf h
        | threw thrown => exact .threw ht hf h

/-! ### Acceptances one after the other -/

/-- Names are **accepted one after the other**, for one contract and into one table. -/
def acceptAll (r : Resolver) (contract : Contract) :
    List (CapabilityId × String) → Instances Provider → Action (Instances Provider)
  | [], c => return c
  | (capability, name) :: rest, c => do
    let (_, c) ← accept r contract capability name c
    acceptAll r contract rest c

/-- Whatever the verdict is, the table keeps the first of the providers that are made. -/
theorem Verdict.keepsFirst_keep (v : Verdict) (capability : CapabilityId) (name : String)
    (serial : Nat) {c : Instances Provider} {made : List (String × Provider)}
    (h : c.KeepsFirst made) :
    (v.keep capability name serial c).2.KeepsFirst (made ++ v.made name serial) := by
  rw [keep]
  cases hv : v.answer capability name serial with
  | error e => rwa [made_of_answer_eq_error hv, List.append_nil]
  | ok provider =>
    rw [made_of_answer hv]
    exact h.insert name provider

/-- After any acceptances, the table keeps the first of the providers that were made. -/
theorem exists_run_acceptAll (r : Resolver) (contract : Contract)
    (calls : List (CapabilityId × String)) {c : Instances Provider}
    {made : List (String × Provider)} (h : c.KeepsFirst made) (w : World) :
    ∃ c' es, (acceptAll r contract calls c).run w = (c', w.after es) ∧
      c'.KeepsFirst (made ++ madeProviders es) := by
  induction calls generalizing c made w with
  | nil => exact ⟨c, [], rfl, by rwa [madeProviders_nil, List.append_nil]⟩
  | cons call rest ih =>
    obtain ⟨capability, name⟩ := call
    obtain ⟨es, hrun, -, hmade, -⟩ := run_accept_eq r contract capability name c w
    have hkeep := (r.verdictIn contract w name).keepsFirst_keep capability name
      (w.constructed.length + 1) h
    obtain ⟨c', fs, hrest, hfirst⟩ := ih hkeep (w.after es)
    refine ⟨c', es ++ fs, ?_, ?_⟩
    · rw [acceptAll, Action.run_bind, hrun, ← World.after_after, ← hrest]
    · rwa [madeProviders_append, hmade, ← List.append_assoc]

/-- **An acceptance does all or nothing, and a name keeps its first instance.** Names are accepted
one after the other, the same name as often as one likes, for one contract and into a table that is
empty at first. At every moment the table has the names that a provider was made for, in the order
of their first providers, and each has its first provider. When one more name is accepted, there is
one judgement on it. Either it is a failure: then this is the answer, no provider is made, and the
table is what it was. Or a provider is made: then the answer is the first provider of the name,
which is this one or an earlier one, and it is what the table has for the name. -/
theorem accepted_all_or_nothing {r : Resolver} {contract : Contract}
    {calls : List (CapabilityId × String)} {w now : World} {c : Instances Provider}
    (hrun : (acceptAll r contract calls ∅).run w = (c, now)) :
    c.KeepsFirst (madeProviders (now.eventsSince w)) ∧
      ∀ capability name answer c' later,
        (accept r contract capability name c).run now = ((answer, c'), later) →
        ∃ v, (∀ v', r.Judges contract now name v' ↔ v' = v) ∧
          match v.answer capability name (now.constructed.length + 1) with
          | .error e =>
            answer = .error e ∧ c' = c ∧
              madeProviders (later.eventsSince w) = madeProviders (now.eventsSince w)
          | .ok provider =>
            madeProviders (later.eventsSince w) =
                madeProviders (now.eventsSince w) ++ [(name, provider)] ∧
              c'.KeepsFirst (madeProviders (later.eventsSince w)) ∧
              ∃ first, c'.get? name = some first ∧ answer = .ok first := by
  obtain ⟨reached, es, hreached, hfirst⟩ :=
    exists_run_acceptAll r contract calls Instances.keepsFirst_empty w
  obtain ⟨rfl, rfl⟩ := Prod.mk.inj (hreached.symm.trans hrun)
  rw [List.nil_append] at hfirst
  refine ⟨by rwa [World.eventsSince_after], fun capability name answer c' later hcall => ?_⟩
  obtain ⟨fs, haccept, -, hmade, -⟩ := run_accept_eq r contract capability name reached (w.after es)
  have hkeep := (r.verdictIn contract (w.after es) name).keepsFirst_keep capability name
    ((w.after es).constructed.length + 1) hfirst
  have hjudges : ∀ v', r.Judges contract (w.after es) name v' ↔
      v' = r.verdictIn contract (w.after es) name := fun v' => Resolver.judges_iff
  generalize r.verdictIn contract (w.after es) name = v at haccept hmade hkeep hjudges
  obtain ⟨hanswer, rfl⟩ := Prod.mk.inj (haccept.symm.trans hcall)
  have hlater : madeProviders (((w.after es).after fs).eventsSince w) =
      madeProviders es ++ v.made name ((w.after es).constructed.length + 1) := by
    rw [World.after_after, World.eventsSince_after, madeProviders_append, hmade]
  -- What the verdict answers is a failure, which changes nothing, or the provider that is put in.
  refine ⟨v, hjudges, ?_⟩
  rw [hlater, World.eventsSince_after]
  rw [Verdict.keep] at hanswer hkeep
  cases hv : v.answer capability name ((w.after es).constructed.length + 1) with
  | error e =>
    rw [hv] at hanswer
    obtain ⟨rfl, rfl⟩ := Prod.mk.inj hanswer
    exact ⟨rfl, rfl, by rw [Verdict.made_of_answer_eq_error hv, List.append_nil]⟩
  | ok provider =>
    rw [hv] at hanswer hkeep
    obtain ⟨rfl, rfl⟩ := Prod.mk.inj hanswer
    exact ⟨by rw [Verdict.made_of_answer hv], hkeep, _, reached.get?_insert_self name _, rfl⟩

/-- The factory throws, makes a provider, fails, and makes another one; another name is not known.
The name keeps the provider that was made at the second call. -/
theorem accepted_fiveCalls :
    let moody : Factory := ⟨⟨0⟩, "v", fun n =>
      if n = 0 then .threw .other else if n = 2 then .failed "no" else .made⟩
    let codec : Contract := ⟨"codec"⟩
    let w : World := .fresh ∅ (.put ∅ ⟨"A", [(codec, moody)]⟩)
    let calls : List (CapabilityId × String) :=
      [(⟨"x"⟩, "A"), (⟨"x"⟩, "A"), (⟨"x"⟩, "B"), (⟨"x"⟩, "A")]
    let reached := (acceptAll .registry codec calls ∅).run w
    let last := (accept .registry codec ⟨"x"⟩ "A" reached.1).run reached.2
    madeProviders (reached.2.eventsSince w) = [("A", ⟨"v", 2⟩)] ∧
      reached.1.names = ["A"] ∧
      madeProviders (last.2.eventsSince w) = [("A", ⟨"v", 2⟩), ("A", ⟨"v", 4⟩)] ∧
      last.1.1 = .ok ⟨"v", 2⟩ := by
  intro moody codec w calls reached last
  have hmade : madeProviders (reached.2.eventsSince w) = [("A", ⟨"v", 2⟩)] := by rfl
  have hjudges : Resolver.registry.Judges codec reached.2 "A" (.provided moody.value) :=
    .provided (t := ⟨"A", [(codec, moody)]⟩) rfl rfl rfl
  have hreached : (acceptAll .registry codec calls ∅).run w = (reached.1, reached.2) := rfl
  obtain ⟨hfirst, hnext⟩ := accepted_all_or_nothing hreached
  obtain ⟨v, huniq, h⟩ := hnext ⟨"x"⟩ "A" last.1.1 last.1.2 last.2 rfl
  obtain rfl := (huniq _).mp hjudges
  obtain ⟨hlater, hlast, first, hget, hanswer⟩ := h
  rw [hmade] at hfirst hlater
  rw [hlater] at hlast
  have hsecond : some first = some ⟨"v", 2⟩ := hget.symm.trans (hlast.get?_eq "A")
  obtain rfl := Option.some.inj hsecond
  exact ⟨hmade, hfirst.names_eq, hlater, hanswer⟩

end ProviderDiscovery
