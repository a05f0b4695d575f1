import ProviderDiscovery.Proofs.Discovery.Requests
import ProviderDiscovery.Proofs.Discovery.Twins

/-!
# When no scope is asked

A scope is asked for one thing only: to locate the resources. So once they have been located no
scope is asked any more until the next reload, and for an identifier that is not a qualified name no
scope is asked at all.
-/

namespace ProviderDiscovery

/-! ### Steps that ask no scope -/

/-- The step asks no scope. -/
abbrev AsksNone {α : Type} (x : Action α) : Prop := DoesOnly (fun e => e.asks = false) x

namespace Candidates

variable (known : String → Bool)

theorem asksNone_search (rs : List Resource) (c : Candidates) : AsksNone (search known rs c) := by
  induction rs generalizing c with
  | nil =>
    rw [search]
    obtain ⟨found, c'⟩ := c.searchPending known c.pending
    cases found <;> exact .pure _
  | cons r rest ih =>
    rw [search]
    obtain ⟨found, c'⟩ := c.searchPending known c.pending
    cases found with
    | true => exact .pure _
    | false =>
      have hlisted : AsksNone (listedNames c'.capability r) := fun w =>
        ⟨[.opened r], rfl, by simp [Event.asks]⟩
      refine hlisted.bind fun answer => ?_
      cases answer with
      | error e => exact .pure _
      | ok names => exact ih _

/-- The candidates **need no scope**: the resources have been located, or no scope could. -/
def NeedsNoScope (c : Candidates) : Prop :=
  c.unread.isSome ∨ isQualifiedName c.capability.text = false

theorem asksNone_hasNext {c : Candidates} (hc : c.NeedsNoScope) : AsksNone (c.hasNext known) := by
  unfold hasNext
  split
  · exact .pure _
  split
  · exact asksNone_search known _ c
  · -- Nothing has been located, so the name is not qualified and locating fails before it asks.
    rename_i hunread
    have hunqualified := hc.resolve_left (by simp [hunread])
    rw [Scope.locate_of_not_isQualifiedName hunqualified]
    exact .pure _

/-- A request for a candidate that needs no scope asks none. -/
theorem asksNone_next {c : Candidates} (hc : c.NeedsNoScope) : AsksNone (c.next known) := by
  refine (asksNone_hasNext known hc).bind fun (answer, c') => ?_
  rcases answer with e | found
  · exact .pure _
  cases found with
  | false => exact .pure _
  | true =>
    simp only
    split <;> exact .pure _

/-- A request that can locate the resources leaves them located. -/
theorem located_of_run_next {c : Candidates} {w : World} {rs : List Resource}
    (hu : c.upcoming = none) (hr : c.unopened w = .ok rs) :
    ((c.next known).run w).1.2.unread.isSome := by
  obtain ⟨c', es, hrun, -, hc'⟩ := run_next known hu hr
  obtain ⟨rs', hunread, -⟩ := hc'.ahead
  rw [hrun, hunread]
  rfl

end Candidates

/-- Accepting a name asks no scope. -/
theorem asksNone_accept (r : Resolver) (contract : Contract) (capability : CapabilityId)
    (name : String) (i : Instances Provider) :
    AsksNone (accept r contract capability name i) :=
  (doesOnly_accept r contract capability name i).mono fun _ => Event.asks_eq_false_of_isAcceptance

namespace Discovery

theorem asks_eq_false_of_mem_entry {a : Authority} {e : Event} (he : e ∈ a.entry) :
    e.asks = false := by
  cases a with
  | unrestricted => cases he
  | held token party =>
    rw [List.mem_singleton.mp he]
    rfl

/-- A step of a discovery that needs no scope asks none. -/
theorem asksNone_advance {d : Discovery} (hd : d.candidates.NeedsNoScope) : AsksNone d.advance := by
  have hsearch : AsksNone d.nextCandidate :=
    (Authority.doesOnly_run (fun _ => asks_eq_false_of_mem_entry)
      (Candidates.asksNone_next _ hd) d.capability).bind fun _ => .pure _
  refine hsearch.bind fun (answer, d₁) => ?_
  rcases answer with e | _ | candidate
  · exact .pure _
  · exact .pure _
  · have haccept : AsksNone (d₁.acceptName candidate.name) :=
      (Authority.doesOnly_run (fun _ => asks_eq_false_of_mem_entry)
        (asksNone_accept d₁.resolver d₁.contract d₁.capability candidate.name d₁.instances)
        d₁.capability).bind fun _ => .pure _
    exact .bind (.record rfl) fun _ => haccept.bind fun _ => .pure _

/-- Only the search of a step looks at candidates. -/
theorem candidates_advance (d : Discovery) (w : World) :
    (d.advance.run w).1.2.candidates = (d.nextCandidate.run w).1.2.candidates := by
  rw [advance, Action.run_bind]
  generalize d.nextCandidate.run w = searched
  obtain ⟨⟨e | _ | candidate, d₁⟩, w₁⟩ := searched <;> rfl

/-- A step that can locate the resources leaves them located, and so does every later one. -/
theorem located_of_run_advance {d d' : Discovery} {w w' : World}
    {answer : Except DiscoveryError (Option Provider)} (hu : d.candidates.upcoming = none)
    (hd : d.candidates.unread.isSome ∨ (d.authority.entranceIn w).runs ≠ 0 ∧
      ∃ rs, d.candidates.unopened (w.after d.authority.entry) = .ok rs)
    (hrun : d.advance.run w = ((answer, d'), w')) : d'.candidates.unread.isSome := by
  have hcandidates := d.candidates_advance w
  rw [hrun, nextCandidate, Action.run_bind] at hcandidates
  change d'.candidates = _ at hcandidates
  rw [hcandidates]
  by_cases hruns : (d.authority.entranceIn w).runs = 0
  · rw [Authority.run_of_runs_eq_zero hruns]
    exact hd.resolve_right fun h => h.1 hruns
  · rw [Authority.run_of_runs_ne_zero hruns, Authority.enter_eq_after_entry]
    have hunopened : ∃ rs, d.candidates.unopened (w.after d.authority.entry) = .ok rs := by
      refine hd.elim (fun hlocated => ?_) And.right
      obtain ⟨rs, hrs⟩ := Option.isSome_iff_exists.mp hlocated
      exact ⟨rs, by rw [Candidates.unopened, hrs]⟩
    obtain ⟨rs, hr⟩ := hunopened
    exact Candidates.located_of_run_next _ hu hr

end Discovery

/-! ### Sessions -/

namespace Session

variable {s : Session}

/-- A request for a provider asks no scope if the candidates need none. -/
theorem asks_eq_false_of_done (hu : s.discovery.candidates.upcoming = none)
    (hs : s.discovery.candidates.NeedsNoScope) {op : Operation} :
    ∀ e ∈ s.done op, e.asks = false := by
  cases op with
  | next =>
    have hrequested := requested_next hu
    generalize s.next = t, s.done .next = es at hrequested ⊢
    cases hrequested with
    | stepped hp hopen hslot hrun =>
      obtain ⟨fs, hworld, hfs⟩ := Discovery.asksNone_advance hs s.world
      rw [hrun] at hworld
      exact World.after_inj hworld ▸ hfs
    | _ => simp
  | _ => simp [done]

/-- Resources that have been located stay located until a reload. -/
theorem located_step (hu : s.discovery.candidates.upcoming = none)
    (hs : s.discovery.candidates.unread.isSome) {op : Operation} (hop : op.isReload = false) :
    (s.step op).discovery.candidates.unread.isSome := by
  cases op with
  | next =>
    have hrequested := requested_next hu
    rw [Session.step]
    generalize s.next = t, s.done .next = es at hrequested ⊢
    cases hrequested with
    | stepped hp hopen hslot hrun => exact Discovery.located_of_run_advance hu (.inl hs) hrun
    | _ => exact hs
  | reload => cases hop
  | _ => exact hs

/-- **Once the resources have been located no scope is asked** until a reload. -/
theorem asks_eq_false_of_located (hk : s.Kept) (hs : s.discovery.candidates.unread.isSome)
    {ops : List Operation} (hops : ∀ op ∈ ops, op.isReload = false) :
    ∀ e ∈ s.trace ops, e.asks = false := by
  induction ops generalizing s with
  | nil => simp [trace]
  | cons op rest ih =>
    have hrest := ih (hk.step op) (located_step hk.upcoming hs (hops op List.mem_cons_self))
      fun op' hop' => hops op' (List.mem_cons_of_mem _ hop')
    exact List.forall_mem_append.mpr ⟨asks_eq_false_of_done hk.upcoming (.inl hs), hrest⟩

/-- **For an identifier that is not a qualified name no scope is asked** at all. -/
theorem asks_eq_false_of_not_isQualifiedName (hk : s.Kept)
    (hs : isQualifiedName s.discovery.capability.text = false) (ops : List Operation) :
    ∀ e ∈ s.trace ops, e.asks = false := by
  induction ops generalizing s with
  | nil => simp [trace]
  | cons op rest ih =>
    obtain ⟨i, c, hsetting⟩ := hk.setting_step op
    have hrest := ih (hk.step op) (by rw [hsetting]; exact hs)
    have hneeds : s.discovery.candidates.NeedsNoScope := .inr (by rw [hk.capability]; exact hs)
    exact List.forall_mem_append.mpr ⟨asks_eq_false_of_done hk.upcoming hneeds, hrest⟩

/-- A step that can locate the resources is the last to ask the scope. -/
theorem located_next (hu : s.discovery.candidates.upcoming = none) (hs : s.isAttempt .next)
    (hruns : (s.discovery.authority.entranceIn s.world).runs ≠ 0) {rs : List Resource}
    (hr : s.discovery.candidates.unopened (s.world.after s.discovery.authority.entry) = .ok rs) :
    s.next.discovery.candidates.unread.isSome := by
  obtain ⟨answer, d, es, hrun, -⟩ := s.discovery.run_advance s.world hu
  obtain ⟨p, hp, hopen, hnext⟩ := next_of_isAttempt hs hrun
  rw [hnext]
  exact Discovery.located_of_run_advance hu (.inr ⟨hruns, rs, hr⟩) hrun

end Session

end ProviderDiscovery
