import ProviderDiscovery.Proofs.Discovery.Exhaustion

/-!
# What a session comes across

Each step of a discovery comes across one mention: a candidate, or the failure of a resource. What
a session comes across over any number of passes is a list of mentions, and when nothing else
happens meanwhile that list can be told in advance: it is a first part of the walk over the located
resources, and the whole walk as soon as a pass has finished. `Session.GoesThrough` says so, with
the names that are taken up and the instances that are kept on the way.
-/

namespace ProviderDiscovery

/-- The mention that a request for a candidate has come across. -/
def Mention.ofAnswer : Except DiscoveryError (Option Candidate) → Option Mention
  | .error e => some (.error e)
  | .ok found => found.map .ok

theorem Mention.ofAnswer_answer (m : Option Mention) : ofAnswer (answer m) = m := by
  rcases m with _ | _ | candidate <;> rfl

/-- Whether an operation is one of the session's **own**, which leaves what has been found and the
rest of the world alone: a pass is begun or asked. -/
def Operation.isOwn : Operation → Bool
  | .iterate | .next | .remove => true
  | _ => false

theorem Operation.isReload_of_isOwn {op : Operation} (h : op.isOwn) : op.isReload = false := by
  cases op <;> first | rfl | cases h

/-- The operations of passes are the session's own. -/
theorem Operation.isOwn_of_mem_passes {passes : List Nat} {op : Operation}
    (h : op ∈ passes.flatMap pass) : op.isOwn := by
  obtain ⟨n, -, hop⟩ := List.mem_flatMap.mp h
  rcases List.mem_cons.mp hop with rfl | hop
  · rfl
  · rw [List.eq_of_mem_replicate hop]
    rfl

namespace Session

/-- What the session **comes across** in an operation: what the discovery's search answers, if the
operation makes it take a step. -/
def comesAcross (s : Session) (op : Operation) : Option Mention :=
  if s.isAttempt op then Mention.ofAnswer (s.discovery.nextCandidate.run s.world).1.1 else none

/-- What the session **encounters** in a run of operations. -/
def encounters (s : Session) : List Operation → List Mention
  | [] => []
  | op :: rest => (s.comesAcross op).toList ++ (s.step op).encounters rest

/-- A session **goes through** a walk over mentions. -/
structure GoesThrough (s : Session) (walk : List Mention) : Prop where
  /-- What it encounters by its own operations is a first part of the walk. -/
  sofar : ∀ ops : List Operation, (∀ op ∈ ops, op.isOwn) → s.encounters ops <+: walk
  /-- It has encountered the whole walk once a pass has finished. -/
  toTheEnd : ∀ ops : List Operation, (∀ op ∈ ops, op.isOwn) → (s.after ops).Finished →
    s.encounters ops = walk
  /-- Some passes, one after the other, get to the end. -/
  reached : ∃ passes : List Nat, (s.after (passes.flatMap Operation.pass)).Finished
  /-- The names that it encounters are taken up, each at once. -/
  tried : ∀ ops : List Operation, (∀ op ∈ ops, op.isOwn) →
    triedNames (s.trace ops) = (s.encounters ops).filterMap Mention.name?
  /-- Instances are kept in the order in which their names are encountered. -/
  kept : ∀ ops : List Operation, (∀ op ∈ ops, op.isOwn) →
    ((s.after ops).discovery.instances.entries.map Prod.fst).Sublist
      ((s.encounters ops).filterMap Mention.name?)

end Session

/-! ### One step -/

namespace Searching

variable {d : Discovery} {w : World} {l : List Mention}

/-- A step takes the head of what is still to come, and takes its name up. -/
theorem advance (h : Searching d w l) :
    ∃ answer d' es, d.advance.run w = ((answer, d'), w.after es) ∧ (l = [] → answer = .ok none) ∧
      triedNames es = (l.head?.bind Mention.name?).toList ∧ Searching d' (w.after es) l.tail := by
  rcases l with _ | ⟨e | candidate, rest⟩
  · obtain ⟨d', es, hrun, hunseen, hd⟩ := h.advance_of_nil
    exact ⟨_, d', es, hrun, fun _ => rfl, hunseen.tried, hd⟩
  · obtain ⟨d', es, hrun, hunseen, hd⟩ := h.advance_of_error
    exact ⟨_, d', es, hrun, nofun, hunseen.tried, hd⟩
  · obtain ⟨asked, calls, d', es, hrun, -, -, htried, -, hd⟩ := h.advance_of_ok
    exact ⟨_, d', es, hrun, nofun, htried, hd⟩

/-- Nothing is still to come when the candidates are exhausted. -/
theorem eq_nil_of_exhausted (h : Searching d w l) (hexhausted : d.candidates.Exhausted) :
    l = [] := by
  obtain ⟨rs, hr, hahead⟩ := h.ahead
  rw [Candidates.unopened, hexhausted.unread] at hr
  obtain rfl := Except.ok.inj hr
  rw [← hahead, Candidates.ahead, hexhausted.pending]
  unfold Candidates.currentMentions
  cases d.candidates.current <;> rfl

/-- At the start the whole walk over the located resources is still to come. -/
theorem of_fresh {rs : List Resource} (hfresh : d.Fresh) (hpermits : d.authority.PermitsFrom w)
    (hlocate : ((d.scope.locate d.capability).run.run (w.after d.authority.entry)).1 = .ok rs) :
    Searching d w (firstMentions (fun _ => false) (mentions d.capability w.files rs)) := by
  refine ⟨?_, ?_, hpermits, fun name hname => ?_, rs, ?_, ?_⟩
  · rw [hfresh.candidates]
    rfl
  · rw [hfresh.candidates]
    rfl
  · have hmem : name ∈ d.instances.entries.map Prod.fst := Instances.contains_iff.mp hname
    rw [hfresh.entries] at hmem
    cases hmem
  · rw [hfresh.candidates]
    exact hlocate
  · rw [hfresh.candidates, Candidates.ahead_start]

end Searching

namespace Session

variable {s : Session} {l : List Mention}

/-- An operation that takes no step of the discovery comes across nothing. -/
theorem comesAcross_of_isAttempt_eq_false {op : Operation} (hop : s.isAttempt op = false) :
    s.comesAcross op = none := by
  rw [comesAcross, hop]
  rfl

/-- A request that makes the discovery take a step comes across the head of what is still to
come. -/
theorem comesAcross_of_isAttempt (h : Searching s.discovery s.world l) {op : Operation}
    (hop : s.isAttempt op) : s.comesAcross op = l.head? := by
  obtain ⟨c, es, hsearch, -⟩ := h.search
  rw [comesAcross, hop, if_pos rfl, hsearch]
  exact Mention.ofAnswer_answer _

/-- An operation of the session's own comes across the head of what is still to come, or leaves
everything to come. -/
theorem step_of_searching (h : Searching s.discovery s.world l) {op : Operation} (hop : op.isOwn) :
    ∃ rest, l = (s.comesAcross op).toList ++ rest ∧
      Searching (s.step op).discovery (s.step op).world rest ∧
      triedNames (s.done op) = (s.comesAcross op).toList.filterMap Mention.name? := by
  cases op with
  | next =>
    cases hattempt : s.isAttempt .next with
    | false =>
      obtain ⟨hdiscovery, hworld⟩ := next_of_isAttempt_eq_false h.upcoming hattempt
      have hacross := comesAcross_of_isAttempt_eq_false hattempt
      refine ⟨l, ?_, ?_, ?_⟩
      · rw [hacross]
        rfl
      · rw [Session.step, hdiscovery, hworld]
        exact h
      · rw [done_of_isAttempt_eq_false hattempt, hacross]
        rfl
    | true =>
      obtain ⟨answer, d', fs, hrun, -, htried, hd⟩ := h.advance
      obtain ⟨p, hp, hopen, hnext⟩ := next_of_isAttempt hattempt hrun
      have hacross := comesAcross_of_isAttempt h hattempt
      refine ⟨l.tail, ?_, ?_, ?_⟩
      · rw [hacross]
        cases l <;> rfl
      · rw [Session.step, hnext]
        exact hd
      · rw [done_of_isAttempt hattempt hrun, htried, hacross]
        cases l <;> simp [filterMap_singleton]
  | iterate => exact ⟨l, rfl, h, rfl⟩
  | remove => exact ⟨l, rfl, h, rfl⟩
  | reload => cases hop
  | meanwhile files registry others => cases hop

/-- What the session encounters is what is no longer to come. -/
theorem after_of_searching (h : Searching s.discovery s.world l) {ops : List Operation}
    (hops : ∀ op ∈ ops, op.isOwn) :
    ∃ rest, l = s.encounters ops ++ rest ∧
      Searching (s.after ops).discovery (s.after ops).world rest ∧
      triedNames (s.trace ops) = (s.encounters ops).filterMap Mention.name? := by
  induction ops generalizing s l with
  | nil => exact ⟨l, rfl, h, rfl⟩
  | cons op rest ih =>
    obtain ⟨l', hl, hstep, hdone⟩ := step_of_searching h (hops op List.mem_cons_self)
    obtain ⟨l'', hl', hafter, htrace⟩ :=
      ih hstep fun op' hop' => hops op' (List.mem_cons_of_mem _ hop')
    refine ⟨l'', ?_, hafter, ?_⟩
    · rw [encounters, List.append_assoc, ← hl']
      exact hl
    · rw [trace, triedNames_append, encounters, List.filterMap_append, hdone, htrace]

/-! ### Passes to the end -/

/-- A pass that is asked often enough finishes, or comes across something. -/
theorem exists_requests (k : Nat) {p : Pass} (hp : s.pass = some p) (hopen : p.ended = false)
    (hk : s.discovery.instances.entries.length - p.position = k)
    (hanswers : ∀ e, some (.error e) ∉ s.answers) (h : Searching s.discovery s.world l) :
    ∃ n, (s.after (Operation.requests n)).Finished ∨
      ∃ l', l'.length < l.length ∧ Searching (s.after (Operation.requests n)).discovery
        (s.after (Operation.requests n)).world l' := by
  -- The induction is on the instances that the pass has still to replay.
  induction k generalizing s p with
  | zero =>
    have hslot : s.discovery.instances.entries[p.position]? = none :=
      List.getElem?_eq_none (Nat.sub_eq_zero_iff_le.mp hk)
    obtain ⟨answer, d', es, hrun, hnil, -, hd⟩ := h.advance
    have hnext := next_of_run hp (Pass.run_next_of_advance hopen hslot hrun)
    refine ⟨1, ?_⟩
    rw [after_requests_succ, hnext]
    cases l with
    | nil =>
      obtain rfl := hnil rfl
      refine .inl ⟨List.mem_append_right _ List.mem_cons_self, fun e he => ?_⟩
      rcases List.mem_append.mp he with he | he
      · exact hanswers e he
      · cases List.mem_singleton.mp he
    | cons m rest => exact .inr ⟨rest, Nat.lt_succ_self _, hd⟩
  | succ k ih =>
    obtain ⟨slot, hslot⟩ : ∃ slot, s.discovery.instances.entries[p.position]? = some slot :=
      ⟨_, List.getElem?_eq_getElem (by omega)⟩
    have hnext := next_of_replay hp (Pass.run_next_of_slot hopen hslot s.world)
    obtain ⟨n, hn⟩ := ih (s := s.next) (p := { p with position := p.position + 1 })
      (congrArg Session.pass hnext) hopen
      (by
        rw [hnext]
        change s.discovery.instances.entries.length - (p.position + 1) = k
        omega)
      (fun e he => by
        rw [hnext] at he
        rcases List.mem_append.mp he with he | he
        · exact hanswers e he
        · cases List.mem_singleton.mp he)
      (by rw [hnext]; exact h)
    exact ⟨n + 1, by rwa [after_requests_succ]⟩

/-- Enough passes, one after the other, get to the end. -/
theorem exists_passes_finished (h : Searching s.discovery s.world l) :
    ∃ passes : List Nat, (s.after (passes.flatMap Operation.pass)).Finished := by
  -- The induction is on the number of mentions that are still to come.
  induction hn : l.length using Nat.strongRecOn generalizing s l with
  | ind n ih =>
    obtain ⟨k, hfinished | ⟨l', hlt, hl'⟩⟩ := exists_requests (s := s.step .iterate) (p := .start) _
      rfl rfl rfl (by simp [Session.step]) h
    · refine ⟨[k], ?_⟩
      rw [List.flatMap_cons, List.flatMap_nil, List.append_nil]
      exact hfinished
    · obtain ⟨passes, hfinished⟩ := ih l'.length (hn ▸ hlt) hl' rfl
      refine ⟨k :: passes, ?_⟩
      rw [List.flatMap_cons, after_append]
      exact hfinished

/-! ### The whole walk -/

/-- Without a reload a session records all that is done. -/
theorem events_after {ops : List Operation} (hk : s.Kept)
    (hops : ∀ op ∈ ops, op.isReload = false) :
    (s.after ops).events = s.events ++ s.trace ops := by
  induction ops generalizing s with
  | nil => exact (List.append_nil _).symm
  | cons op rest ih =>
    have hstep : (s.step op).events = s.events ++ s.done op := by
      cases op with
      | next =>
        have hrequested := requested_next hk.upcoming
        rw [Session.step]
        generalize s.next = t, s.done .next = es at hrequested ⊢
        cases hrequested with
        | stepped hp hopen hslot hrun => rfl
        | _ => exact (List.append_nil _).symm
      | reload => cases hops .reload List.mem_cons_self
      | _ => exact (List.append_nil _).symm
    have hrest := ih (hk.step op) fun op' hop' => hops op' (List.mem_cons_of_mem _ hop')
    rw [hstep, List.append_assoc] at hrest
    exact hrest

/-- **A fresh session goes through the walk** over its resources, if its authority permits all
steps and its scope says which resources there are. -/
theorem goesThrough_of_fresh {d : Discovery} {w : World} {rs : List Resource} (hfresh : d.Fresh)
    (hpermits : d.authority.PermitsFrom w)
    (hlocate : ((d.scope.locate d.capability).run.run (w.after d.authority.entry)).1 = .ok rs) :
    (start d w).GoesThrough
      (firstMentions (fun _ => false) (mentions d.capability w.files rs)) := by
  have hsearching : Searching (start d w).discovery (start d w).world _ :=
    .of_fresh hfresh hpermits hlocate
  have hkept := kept_of_fresh hfresh w
  refine ⟨fun ops hops => ?_, fun ops hops hfinished => ?_, exists_passes_finished hsearching,
    fun ops hops => ?_, fun ops hops => ?_⟩
  · obtain ⟨rest, hwalk, -⟩ := after_of_searching hsearching hops
    exact ⟨rest, hwalk.symm⟩
  · obtain ⟨rest, hwalk, hrest, -⟩ := after_of_searching hsearching hops
    have hexhausted := ((settled_start d w).after hkept ops).exhausted hfinished
    rw [hrest.eq_nil_of_exhausted hexhausted, List.append_nil] at hwalk
    exact hwalk.symm
  · obtain ⟨-, -, -, htried⟩ := after_of_searching hsearching hops
    exact htried
  · obtain ⟨-, -, -, htried⟩ := after_of_searching hsearching hops
    have hafter := hkept.after ops
    have hevents : ((start d w).after ops).events = (start d w).trace ops :=
      events_after hkept fun op hop => Operation.isReload_of_isOwn (hops op hop)
    rw [← htried, ← hevents, hafter.entries]
    exact hafter.made.trans hafter.called

end Session

end ProviderDiscovery
