import Mathlib.Data.Finset.Card
import Mathlib.Data.Finset.SDiff
import ProviderDiscovery.Proofs.Discovery.Account
import ProviderDiscovery.Proofs.Discovery.Encounters
import ProviderDiscovery.Proofs.Discovery.Unasked
import ProviderDiscovery.Proofs.Scope.Steady

/-!
# Every pass ends, and few fail

Whatever a step of a discovery comes across is used up: it is a failure, which is answered once, or
a name, for which a provider is made or an error is answered. So what is met in a run of operations
pays for the errors and the providers of the run (`Balance`), and what is still to come is a list
that gets shorter (`HeadsFor`). Two bounds follow. A pass replays the instances and then makes at
most one provider for each name that is still to come, so it ends. And only resources that fail and
names that are declined make a pass fail, each of them once: after more passes than that one has
gone to the end.
-/

namespace ProviderDiscovery

/-! ### Counting mentions -/

/-- A mention is a failure or a name. -/
theorem length_filterMap_failure?_add (l : List Mention) :
    (l.filterMap Mention.failure?).length + (l.filterMap Mention.name?).length = l.length := by
  induction l with
  | nil => rfl
  | cons m rest ih =>
    cases m with
    | error e =>
      rw [List.filterMap_cons_some (Mention.failure?_error e),
        List.filterMap_cons_none (Mention.name?_error e), List.length_cons, List.length_cons]
      omega
    | ok candidate =>
      rw [List.filterMap_cons_none (Mention.failure?_ok candidate),
        List.filterMap_cons_some (Mention.name?_ok candidate), List.length_cons, List.length_cons]
      omega

/-- Resources mention as many failures as there are resources that fail. -/
theorem length_filterMap_failure?_mentions (capability : CapabilityId) (files : FileTree)
    (rs : List Resource) :
    ((mentions capability files rs).filterMap Mention.failure?).length =
      rs.countP fun r => !(r.namesIn capability files).isOk := by
  induction rs with
  | nil => rfl
  | cons r rest ih =>
    rw [List.countP_cons]
    cases hr : r.namesIn capability files with
    | error e =>
      rw [mentions_cons_of_error hr, List.filterMap_cons_some (Mention.failure?_error e),
        List.length_cons, ih]
      rfl
    | ok names =>
      have hnone : (names.map fun name => (.ok ⟨name, r.id⟩ : Mention)).filterMap
          Mention.failure? = [] := by
        simp
      rw [mentions_cons_of_ok hr, List.filterMap_append, hnone, List.nil_append, ih]
      rfl

/-! ### What a step gives for what it meets -/

/-- The acceptance of a name **may be declined** when there are numbers of calls at which the
verdict on the name is none that provides. -/
def Discovery.MayDecline (d : Discovery) (registry : Registry) (name : String) : Prop :=
  ∃ asked calls, ∀ value,
    d.resolver.verdict d.contract registry asked calls name ≠ .provided value

/-- What a step **gives** for what it meets, when some names may be declined: its answer, and the
providers that it makes. -/
inductive Gives (D : String → Prop) :
    Option Mention → Except DiscoveryError (Option Provider) → List (String × Provider) → Prop where
  /-- Nothing is left. -/
  | nothing : Gives D none (.ok none) []
  /-- A resource fails. -/
  | failed {e : DiscoveryError} : Gives D (some (.error e)) (.error e) []
  /-- A name is declined. -/
  | declined {candidate : Candidate} {e : DiscoveryError} (h : D candidate.name) :
      Gives D (some (.ok candidate)) (.error e) []
  /-- A provider is made for a name. -/
  | provided {candidate : Candidate} {provider : Provider} :
      Gives D (some (.ok candidate)) (.ok (some provider)) [(candidate.name, provider)]

/-- For a name that is met a step gives what the verdict on it says. -/
theorem gives_of_verdict (d : Discovery) (registry : Registry) (candidate : Candidate)
    (asked : Nat) (calls : Handle → Nat) (serial : Nat) :
    let v := d.resolver.verdict d.contract registry asked calls candidate.name
    Gives (d.MayDecline registry) (some (.ok candidate))
      ((v.answer d.capability candidate.name serial).map some) (v.made candidate.name serial) := by
  intro v
  have hdeclined : (∀ value, v ≠ .provided value) → d.MayDecline registry candidate.name :=
    fun h => ⟨asked, calls, h⟩
  cases hv : v with
  | provided value => exact .provided
  | notFound => exact .declined (hdeclined (by simp [hv]))
  | notAssignable => exact .declined (hdeclined (by simp [hv]))
  | failed cause => exact .declined (hdeclined (by simp [hv]))

/-- A step meets the head of what is still to come, and takes its name up. -/
theorem Searching.advance_gives {d : Discovery} {w : World} {l : List Mention}
    (h : Searching d w l) :
    ∃ answer d' es, d.advance.run w = ((answer, d'), w.after es) ∧
      Gives (d.MayDecline w.registry) l.head? answer (madeProviders es) ∧
      triedNames es = l.head?.toList.filterMap Mention.name? ∧
      Searching d' (w.after es) l.tail := by
  rcases l with _ | ⟨e | candidate, rest⟩
  · obtain ⟨d', es, hrun, hunseen, hd⟩ := h.advance_of_nil
    refine ⟨_, d', es, hrun, ?_, hunseen.tried, hd⟩
    rw [hunseen.made]
    exact .nothing
  · obtain ⟨d', es, hrun, hunseen, hd⟩ := h.advance_of_error
    refine ⟨_, d', es, hrun, ?_, hunseen.tried, hd⟩
    rw [hunseen.made]
    exact .failed
  · obtain ⟨asked, calls, d', es, hrun, -, -, htried, hmade, hd⟩ := h.advance_of_ok
    refine ⟨_, d', es, hrun, ?_, htried, hd⟩
    rw [hmade]
    exact gives_of_verdict d w.registry candidate asked calls _

/-! ### The balance of a run -/

/-- Whether an answer of a pass is an error. -/
def isError : Option (Except DiscoveryError Provider) → Bool
  | some (.error _) => true
  | _ => false

/-- The **balance** of a run, when some names may be declined: the names that are met are taken up,
each mention that is met pays for one error or one provider, and a name without a provider is one of
those that may be declined. -/
structure Balance (D : String → Prop) (met : List Mention) (errors : Nat) (es : List Event) :
    Prop where
  tried : triedNames es = met.filterMap Mention.name?
  made : ((madeProviders es).map Prod.fst).Sublist (triedNames es)
  paid : errors + (madeProviders es).length ≤ met.length
  declined : ∀ name ∈ triedNames es, name ∈ (madeProviders es).map Prod.fst ∨ D name

namespace Balance

variable {D : String → Prop} {met met' : List Mention} {errors errors' : Nat}
  {es es' : List Event}

theorem nil : Balance D [] 0 [] :=
  ⟨rfl, .slnil, Nat.le_refl 0, nofun⟩

/-- Runs one after the other. -/
theorem append (h : Balance D met errors es) (h' : Balance D met' errors' es') :
    Balance D (met ++ met') (errors + errors') (es ++ es') where
  tried := by
    rw [triedNames_append, List.filterMap_append, h.tried, h'.tried]
  made := by
    rw [madeProviders_append, List.map_append, triedNames_append]
    exact h.made.append h'.made
  paid := by
    have hpaid := h.paid
    have hpaid' := h'.paid
    rw [madeProviders_append, List.length_append, List.length_append]
    omega
  declined := by
    intro name hname
    rw [triedNames_append] at hname
    rw [madeProviders_append, List.map_append]
    rcases List.mem_append.mp hname with hname | hname
    · exact (h.declined name hname).imp_left (List.mem_append_left _)
    · exact (h'.declined name hname).imp_left (List.mem_append_right _)

/-- Fewer errors are paid for as well. -/
theorem mono (h : Balance D met errors es) (hle : errors' ≤ errors) : Balance D met errors' es :=
  ⟨h.tried, h.made, Nat.le_trans (Nat.add_le_add_right hle _) h.paid, h.declined⟩

/-- A step is balanced. -/
theorem of_gives {m : Option Mention} {answer : Except DiscoveryError (Option Provider)}
    (h : Gives D m answer (madeProviders es))
    (htried : triedNames es = m.toList.filterMap Mention.name?) (p : Pass) (d : Discovery) :
    Balance D m.toList (isError (p.answered d answer).1).toNat es := by
  generalize hmade : madeProviders es = made at h
  cases h with
  | nothing =>
    exact ⟨htried, by simp [hmade], by simp [hmade, Pass.answered, isError], by simp [htried]⟩
  | failed =>
    exact ⟨htried, by simp [hmade], by simp [hmade, Pass.answered, isError], by simp [htried]⟩
  | declined h =>
    refine ⟨htried, by simp [hmade], by simp [hmade, Pass.answered, isError], ?_⟩
    intro name hname
    rw [htried] at hname
    obtain rfl : name = _ := by simpa using hname
    exact .inr h
  | provided =>
    refine ⟨htried, by simp [hmade, htried], by simp [hmade, Pass.answered, isError], ?_⟩
    intro name hname
    rw [htried] at hname
    rw [hmade]
    exact .inl (by simpa using hname)

end Balance

/-! ### What is still to come -/

theorem Operation.isReload_of_keepsPass {op : Operation} (h : op.keepsPass) :
    op.isReload = false := by
  cases op <;> first | rfl | cases h

/-- The operations of passes, each of which is begun when the one before has been left. -/
def Operation.inPasses (passes : List (List Operation)) : List Operation :=
  passes.flatMap (Operation.iterate :: ·)

theorem Operation.isReload_of_mem_inPasses {passes : List (List Operation)}
    (h : ∀ pass ∈ passes, ∀ op ∈ pass, op.isReload = false) :
    ∀ op ∈ inPasses passes, op.isReload = false := by
  intro op hop
  obtain ⟨pass, hpass, hop⟩ := List.mem_flatMap.mp hop
  rcases List.mem_cons.mp hop with rfl | hop
  · rfl
  · exact h pass hpass op hop

/-- Which resources are to be opened does not depend on what others do. -/
theorem Candidates.unopened_eq_of_located {c : Candidates} {files : FileTree}
    (h : c.unread.isSome ∨ ∃ rs, AlwaysAnswers files (c.scope.locate c.capability).run (.ok rs))
    {v w : World} (hv : v.files = files) (hw : w.files = files) : c.unopened v = c.unopened w := by
  cases hunread : c.unread with
  | some rs => rw [unopened, unopened, hunread]
  | none =>
    obtain ⟨rs, hlocate⟩ := h.resolve_left (by simp [hunread])
    rw [unopened, unopened, hunread]
    exact (hlocate v hv).1.trans (hlocate w hw).1.symm

namespace Session

/-- A request that takes no step of the discovery yields no error. -/
theorem countP_isError_of_isAttempt_eq_false {s : Session}
    (hu : s.discovery.candidates.upcoming = none) (hs : s.isAttempt .next = false) :
    s.next.answers.countP isError = s.answers.countP isError := by
  have hrequested := requested_next hu
  generalize s.next = t, s.done .next = es at hrequested
  cases hrequested with
  | idle hp => rfl
  | ended hp hended => simp [isError]
  | replayed hp hopen hslot => simp [isError, slotAnswer]
  | stepped hp hopen hslot hrun =>
    have hindex : s.discovery.instances.getIndex? _ = none := hslot
    simp [isAttempt, hp, hopen, hindex] at hs

/-- A session with a discovery **heads for** a list of mentions when they are still to come,
whatever others do, as long as the files and types stay. -/
structure HeadsFor (s : Session) (d : Discovery) (w : World) (l : List Mention) : Prop where
  searching : Searching s.discovery s.world l
  setting : ∃ i c, s.discovery = { d with instances := i, candidates := c }
  files : s.world.files = w.files
  registry : s.world.registry = w.registry
  /-- The resources have been located, or whoever locates them gets the same ones. -/
  located : s.discovery.candidates.unread.isSome ∨
    ∃ rs, AlwaysAnswers w.files
      (s.discovery.candidates.scope.locate s.discovery.candidates.capability).run (.ok rs)

namespace HeadsFor

variable {s : Session} {d : Discovery} {w : World} {l : List Mention}

/-- The same names may be declined. -/
theorem mayDecline_eq (h : s.HeadsFor d w l) :
    s.discovery.MayDecline s.world.registry = d.MayDecline w.registry := by
  obtain ⟨i, c, hs⟩ := h.setting
  rw [hs, h.registry]
  rfl

/-- Nothing but the discovery and the world makes a difference. -/
theorem of_eq (h : s.HeadsFor d w l) {t : Session} (hdiscovery : t.discovery = s.discovery)
    (hworld : t.world = s.world) : t.HeadsFor d w l := by
  obtain ⟨hsearching, hsetting, hfiles, hregistry, hlocated⟩ := h
  rw [← hdiscovery] at hsearching hsetting hlocated
  rw [← hworld] at hsearching hfiles hregistry
  exact ⟨hsearching, hsetting, hfiles, hregistry, hlocated⟩

/-- What others do makes no difference. -/
theorem meanwhile (h : s.HeadsFor d w l) (others : List Event) :
    (s.step (.meanwhile w.files w.registry others)).HeadsFor d w l := by
  obtain ⟨rs, hr, hahead⟩ := h.searching.ahead
  rw [h.files] at hahead
  refine ⟨⟨h.searching.upcoming, h.searching.capability, ?_, h.searching.returned, rs, ?_, hahead⟩,
    h.setting, rfl, rfl, h.located⟩
  · exact (h.searching.permits.after others).changed w.files w.registry
  · rw [← hr]
    exact Candidates.unopened_eq_of_located h.located rfl h.files

/-- **A request** meets what comes next, if it makes the discovery take a step, and the mentions
behind that are still to come. -/
theorem next (h : s.HeadsFor d w l) (hk : s.Kept) :
    ∃ l' errors, l = (s.comesAcross .next).toList ++ l' ∧ s.next.HeadsFor d w l' ∧
      Balance (d.MayDecline w.registry) (s.comesAcross .next).toList errors (s.done .next) ∧
      s.next.answers.countP isError = s.answers.countP isError + errors := by
  cases hattempt : s.isAttempt .next with
  | false =>
    have hacross := comesAcross_of_isAttempt_eq_false hattempt
    obtain ⟨hdiscovery, hworld⟩ := next_of_isAttempt_eq_false hk.upcoming hattempt
    refine ⟨l, 0, by rw [hacross]; rfl, h.of_eq hdiscovery hworld, ?_, ?_⟩
    · rw [hacross, done_of_isAttempt_eq_false hattempt]
      exact .nil
    · exact countP_isError_of_isAttempt_eq_false hk.upcoming hattempt
  | true =>
    obtain ⟨answer, d', fs, hrun, hgives, htried, hd⟩ := h.searching.advance_gives
    obtain ⟨p, hp, hopen, hnext⟩ := next_of_isAttempt hattempt hrun
    have hacross := comesAcross_of_isAttempt h.searching hattempt
    obtain ⟨rs, hr, -⟩ := h.searching.ahead
    obtain ⟨i, c', hsetting⟩ := hk.setting_step .next
    rw [Session.step, hnext] at hsetting
    obtain ⟨i₀, c₀, hs⟩ := h.setting
    rw [h.mayDecline_eq] at hgives
    refine ⟨l.tail, (isError (p.answered d' answer).1).toNat, ?_, ?_, ?_, ?_⟩
    · rw [hacross]
      cases l <;> rfl
    · rw [hnext]
      refine ⟨hd, ⟨i, c', ?_⟩, h.files, h.registry, .inl ?_⟩
      · exact hsetting.trans (by rw [hs])
      · exact Discovery.located_of_run_advance hk.upcoming
          (.inr ⟨h.searching.permits.permits.1, rs, hr⟩) hrun
    · rw [hacross, done_of_isAttempt hattempt hrun]
      exact .of_gives hgives htried p d'
    · rw [hnext]
      simp only [List.countP_append, List.countP_singleton]
      cases isError (p.answered d' answer).1 <;> rfl

/-- An operation meets what comes next, or leaves everything to come. -/
theorem step (h : s.HeadsFor d w l) (hk : s.Kept) {op : Operation} (hop : op.isReload = false)
    (hleaves : op.Leaves w.files w.registry) :
    ∃ l' errors, l = (s.comesAcross op).toList ++ l' ∧ (s.step op).HeadsFor d w l' ∧
      Balance (d.MayDecline w.registry) (s.comesAcross op).toList errors (s.done op) ∧
      (op.keepsPass → (s.step op).answers.countP isError = s.answers.countP isError + errors) := by
  cases op with
  | next =>
    obtain ⟨l', errors, hl, hnext, hbalance, herrors⟩ := h.next hk
    exact ⟨l', errors, hl, hnext, hbalance, fun _ => herrors⟩
  | iterate => exact ⟨l, 0, rfl, h.of_eq rfl rfl, .nil, nofun⟩
  | remove => exact ⟨l, 0, rfl, h, .nil, fun _ => rfl⟩
  | reload => cases hop
  | meanwhile files registry others =>
    obtain ⟨rfl, rfl⟩ := hleaves
    exact ⟨l, 0, rfl, h.meanwhile others, .nil, fun _ => rfl⟩

/-- **What has been met is no longer to come**, and it pays for the errors and the providers. -/
theorem after (h : s.HeadsFor d w l) (hk : s.Kept) {ops : List Operation}
    (hops : ∀ op ∈ ops, op.isReload = false ∧ op.Leaves w.files w.registry) :
    ∃ l' errors, l = s.encounters ops ++ l' ∧ (s.after ops).HeadsFor d w l' ∧
      Balance (d.MayDecline w.registry) (s.encounters ops) errors (s.trace ops) ∧
      ((∀ op ∈ ops, op.keepsPass) →
        (s.after ops).answers.countP isError = s.answers.countP isError + errors) := by
  induction ops generalizing s l with
  | nil => exact ⟨l, 0, rfl, h, .nil, fun _ => rfl⟩
  | cons op rest ih =>
    obtain ⟨hop, hrest⟩ := List.forall_mem_cons.mp hops
    obtain ⟨l', errors, hl, hstep, hbalance, herrors⟩ := h.step hk hop.1 hop.2
    obtain ⟨l'', errors', hl', hafter, hbalance', herrors'⟩ := ih hstep (hk.step op) hrest
    refine ⟨l'', errors + errors', ?_, hafter, hbalance.append hbalance', ?_⟩
    · rw [encounters, List.append_assoc, ← hl']
      exact hl
    · intro hkeeps
      obtain ⟨hkeep, hkeeps⟩ := List.forall_mem_cons.mp hkeeps
      have hfirst := herrors hkeep
      have hbehind : (s.after (op :: rest)).answers.countP isError = _ := herrors' hkeeps
      rw [hbehind, hfirst, Nat.add_assoc]

/-- The names that are still to come have not been handed out, and are different from each other. -/
theorem names (h : s.HeadsFor d w l) :
    (l.filterMap Mention.name?).Nodup ∧
      ∀ name ∈ l.filterMap Mention.name?, name ∉ s.discovery.candidates.returned := by
  obtain ⟨rs, -, rfl⟩ := h.searching.ahead
  refine ⟨nodup_filterMap_name?_firstMentions _ _, ?_⟩
  intro name hname hreturned
  obtain ⟨m, hm, hmname⟩ := List.mem_filterMap.mp hname
  cases m with
  | error e => cases hmname
  | ok candidate =>
    obtain rfl := Option.some.inj hmname
    have hskip := skip_eq_false_of_mem_firstMentions hm
    simp [Candidates.isSkipped, hreturned] at hskip

end HeadsFor

/-- When nothing has been found the first mentions in the located resources are still to come. -/
theorem headsFor_of_fresh {s : Session} {d : Discovery} {w : World} {rs : List Resource}
    (hfresh : s.discovery.Fresh)
    (hsetting : ∃ i c, s.discovery = { d with instances := i, candidates := c })
    (ha : d.authority = .unrestricted) (hfiles : s.world.files = w.files)
    (hregistry : s.world.registry = w.registry)
    (hlocate : AlwaysAnswers w.files (d.scope.locate d.capability).run (.ok rs)) :
    s.HeadsFor d w (firstMentions (fun _ => false) (mentions d.capability w.files rs)) := by
  obtain ⟨i, c, hs⟩ := hsetting
  have hcandidates := hfresh.candidates
  have hpermits : s.discovery.authority.PermitsFrom s.world := by
    rw [hs, ha]
    exact Authority.permitsFrom_unrestricted s.world
  have hsearching : Searching s.discovery s.world
      (firstMentions (fun _ => false) (mentions s.discovery.capability s.world.files rs)) := by
    refine .of_fresh hfresh hpermits ?_
    have hanswer := (hlocate (s.world.after s.discovery.authority.entry) hfiles).1
    rw [hs] at hanswer ⊢
    exact hanswer
  rw [hs, hfiles] at hsearching
  refine ⟨hs ▸ hsearching, ⟨i, c, hs⟩, hfiles, hregistry, .inr ⟨rs, ?_⟩⟩
  rw [hcandidates, hs]
  exact hlocate

/-- After any operations only mentions in the located resources are still to come. -/
theorem HeadsFor.exists_after {s : Session} {d : Discovery} {w : World} {l : List Mention}
    {rs : List Resource} (h : s.HeadsFor d w l) (hl : l ⊆ mentions d.capability w.files rs)
    (hk : s.Kept) (ha : d.authority = .unrestricted)
    (hlocate : AlwaysAnswers w.files (d.scope.locate d.capability).run (.ok rs))
    {ops : List Operation} (hops : ∀ op ∈ ops, op.Leaves w.files w.registry) :
    ∃ l', l' ⊆ mentions d.capability w.files rs ∧ (s.after ops).HeadsFor d w l' := by
  induction ops generalizing s l with
  | nil => exact ⟨l, hl, h⟩
  | cons op rest ih =>
    obtain ⟨hop, hrest⟩ := List.forall_mem_cons.mp hops
    cases hreload : op.isReload with
    | false =>
      obtain ⟨l', errors, rfl, hstep, -⟩ := h.step hk hreload hop
      exact ih hstep (List.append_subset.mp hl).2 (hk.step op) hrest
    | true =>
      -- Everything that was found is forgotten, so the whole walk is to come again.
      obtain rfl : op = .reload := by
        cases op <;> first | rfl | cases hreload
      obtain ⟨i, c, hs⟩ := h.setting
      have hsetting : ∃ i c,
          (s.step .reload).discovery = { d with instances := i, candidates := c } := by
        refine ⟨i.clear, .start d.capability d.scope, ?_⟩
        rw [Session.step, hs]
        rfl
      exact ih (headsFor_of_fresh s.fresh_step_reload hsetting ha h.files h.registry hlocate)
        (firstMentions_sublist _ _).subset (hk.step .reload) hrest

/-! ### A pass ends -/

/-- A pass that has answered more often than there are instances has come to an end. -/
theorem exists_end_of_length_lt {s : Session} (hr : s.Replays)
    (hlt : s.discovery.instances.entries.length < s.answers.length) :
    ∃ i ≤ s.discovery.instances.entries.length, ∃ a, s.answers[i]? = some a ∧
      yielded? a = none := by
  rw [Replays] at hr
  split at hr
  · rw [hr] at hlt
    cases hlt
  · rename_i p hp
    obtain ⟨rest, hanswers, hrest⟩ := hr.answers_eq
    have hposition := hr.position_le
    have hlength : ((s.discovery.instances.entries.take p.position).map slotAnswer).length =
        p.position := by
      rw [List.length_map, List.length_take, Nat.min_eq_left hposition]
    cases rest with
    | nil =>
      rw [hanswers, List.append_nil, hlength] at hlt
      omega
    | cons a rest =>
      refine ⟨p.position, hposition, a, ?_, hrest a List.mem_cons_self⟩
      rw [hanswers, List.getElem?_append_right (Nat.le_of_eq hlength), hlength, Nat.sub_self]
      rfl

/-- Each request to a pass is answered once. -/
theorem length_answers_after {s : Session} (hk : s.Kept) (hp : s.pass.isSome)
    {ops : List Operation} (hops : ∀ op ∈ ops, op.keepsPass) :
    (s.after ops).answers.length = s.answers.length + ops.countP Operation.isRequest := by
  induction ops generalizing s with
  | nil => rfl
  | cons op rest ih =>
    obtain ⟨hop, hrest⟩ := List.forall_mem_cons.mp hops
    have hstep : (s.step op).pass.isSome ∧
        (s.step op).answers.length = s.answers.length + op.isRequest.toNat := by
      cases op with
      | next =>
        have hrequested := requested_next hk.upcoming
        rw [Session.step]
        generalize s.next = t, s.done .next = es at hrequested ⊢
        cases hrequested with
        | idle hnone =>
          rw [hnone] at hp
          cases hp
        | ended hq hended => exact ⟨hp, List.length_append⟩
        | replayed hq hopen hslot => exact ⟨rfl, List.length_append⟩
        | stepped hq hopen hslot hrun => exact ⟨rfl, List.length_append⟩
      | iterate => cases hop
      | remove => exact ⟨hp, rfl⟩
      | reload => cases hop
      | meanwhile files registry others => exact ⟨hp, rfl⟩
    obtain ⟨hpass, hlength⟩ := hstep
    have hafter : (s.after (op :: rest)).answers.length = _ := ih (hk.step op) hpass hrest
    rw [hafter, hlength, List.countP_cons]
    cases op.isRequest with
    | false => rfl
    | true => simp only [Bool.toNat_true, if_true]; omega

/-- **A pass ends.** It makes at most one provider for each name that is still to come, so it comes
to its end when it is asked more often than there are instances and such names. -/
theorem exists_end_of_pass {s : Session} {d : Discovery} {w : World} {l : List Mention}
    (h : s.HeadsFor d w l) (hk : s.Kept) {pass : List Operation}
    (hpass : ∀ op ∈ pass, op.keepsPass ∧ op.Leaves w.files w.registry)
    (hlt : s.discovery.instances.size + (l.filterMap Mention.name?).length <
      pass.countP Operation.isRequest) :
    ∃ i ≤ s.discovery.instances.size + (l.filterMap Mention.name?).length, ∃ a,
      (s.after (.iterate :: pass)).answers[i]? = some a ∧ yielded? a = none := by
  have hkeeps : ∀ op ∈ pass, op.keepsPass := fun op hop => (hpass op hop).1
  have hleaves : ∀ op ∈ pass, op.isReload = false ∧ op.Leaves w.files w.registry :=
    fun op hop => ⟨Operation.isReload_of_keepsPass (hpass op hop).1, (hpass op hop).2⟩
  have hbegun : (s.step .iterate).HeadsFor d w l := h.of_eq rfl rfl
  have hkept : (s.step .iterate).Kept := hk.step .iterate
  obtain ⟨l', errors, hl, -, hbalance, -⟩ := hbegun.after hkept hleaves
  have hanswers : ((s.step .iterate).after pass).answers.length =
      pass.countP Operation.isRequest :=
    (length_answers_after hkept rfl hkeeps).trans (Nat.zero_add _)
  have hbegins : (s.step .iterate).Replays := Pass.Follows.start _
  have hreplays : ((s.step .iterate).after pass).Replays := hbegins.after hkept pass
  have hentries : ((s.step .iterate).after pass).discovery.instances.entries.length ≤
      s.discovery.instances.size + (l.filterMap Mention.name?).length := by
    have hevents : ((s.step .iterate).after pass).events =
        s.events ++ (s.step .iterate).trace pass :=
      events_after hkept fun op hop => (hleaves op hop).1
    have hmade := hbalance.made.length_le
    rw [List.length_map, hbalance.tried] at hmade
    rw [(hkept.after pass).entries, hevents, madeProviders_append, List.length_append, ← hk.entries,
      hl, List.filterMap_append, List.length_append, Instances.size]
    omega
  obtain ⟨i, hi, a, ha, hnone⟩ := exists_end_of_length_lt hreplays (by omega)
  exact ⟨i, Nat.le_trans hi hentries, a, ha, hnone⟩

/-! ### Passes one after the other -/

/-- The answers of each pass. -/
def answersOfPasses (s : Session) :
    List (List Operation) → List (List (Option (Except DiscoveryError Provider)))
  | [] => []
  | pass :: rest =>
    let t := s.after (.iterate :: pass)
    t.answers :: t.answersOfPasses rest

/-- The number of passes that **fail**, which have answered with an error. -/
def failedPasses (s : Session) (passes : List (List Operation)) : Nat :=
  (s.answersOfPasses passes).countP fun answers => answers.any isError

/-- Passes are **driven** to their ends when each has answered with an error or with `none`. -/
def Driven (s : Session) (passes : List (List Operation)) : Prop :=
  ∀ answers ∈ s.answersOfPasses passes, ∃ a ∈ answers, yielded? a = none

theorem encounters_append (s : Session) (ops more : List Operation) :
    s.encounters (ops ++ more) = s.encounters ops ++ (s.after ops).encounters more := by
  induction ops generalizing s with
  | nil => rfl
  | cons op rest ih =>
    rw [List.cons_append, encounters, encounters, ih, List.append_assoc]
    rfl

theorem trace_append (s : Session) (ops more : List Operation) :
    s.trace (ops ++ more) = s.trace ops ++ (s.after ops).trace more := by
  induction ops generalizing s with
  | nil => rfl
  | cons op rest ih =>
    rw [List.cons_append, trace, trace, ih, List.append_assoc]
    rfl

/-- A pass that fails has answered with at least one error. -/
theorem toNat_any_le_countP {α : Type} (p : α → Bool) (l : List α) :
    (l.any p).toNat ≤ l.countP p := by
  cases hany : l.any p with
  | false => exact Nat.zero_le _
  | true =>
    obtain ⟨a, ha, hp⟩ := List.any_eq_true.mp hany
    exact List.countP_pos_iff.mpr ⟨a, ha, hp⟩

/-- **What passes meet pays for the passes that fail.** -/
theorem HeadsFor.passes {s : Session} {d : Discovery} {w : World} {l : List Mention}
    (h : s.HeadsFor d w l) (hk : s.Kept) {passes : List (List Operation)}
    (hpasses : ∀ pass ∈ passes, ∀ op ∈ pass, op.keepsPass ∧ op.Leaves w.files w.registry) :
    ∃ l', l = s.encounters (Operation.inPasses passes) ++ l' ∧
      (s.after (Operation.inPasses passes)).HeadsFor d w l' ∧
      Balance (d.MayDecline w.registry) (s.encounters (Operation.inPasses passes))
        (s.failedPasses passes) (s.trace (Operation.inPasses passes)) := by
  induction passes generalizing s l with
  | nil => exact ⟨l, rfl, h, .nil⟩
  | cons pass rest ih =>
    obtain ⟨hpass, hrest⟩ := List.forall_mem_cons.mp hpasses
    have hbegun : (s.step .iterate).HeadsFor d w l := h.of_eq rfl rfl
    have hkept : (s.step .iterate).Kept := hk.step .iterate
    obtain ⟨l', errors, hl, hafter, hbalance, herrors⟩ :=
      hbegun.after hkept fun op hop =>
        ⟨Operation.isReload_of_keepsPass (hpass op hop).1, (hpass op hop).2⟩
    have hfailed : ((s.after (.iterate :: pass)).answers.any isError).toNat ≤ errors := by
      have hcount := herrors fun op hop => (hpass op hop).1
      have hnone : (s.step .iterate).answers.countP isError = 0 := rfl
      rw [hnone, Nat.zero_add] at hcount
      exact Nat.le_trans (toNat_any_le_countP _ _) (Nat.le_of_eq hcount)
    obtain ⟨l'', hl', hpassed, hbalance'⟩ := ih hafter (hkept.after pass) hrest
    have hfirst : s.failedPasses (pass :: rest) =
        ((s.after (.iterate :: pass)).answers.any isError).toNat +
          (s.after (.iterate :: pass)).failedPasses rest := by
      rw [failedPasses, answersOfPasses, List.countP_cons, failedPasses, Nat.add_comm]
      cases (s.after (.iterate :: pass)).answers.any isError <;> rfl
    have hops : Operation.inPasses (pass :: rest) =
        (.iterate :: pass) ++ Operation.inPasses rest := List.flatMap_cons
    refine ⟨l'', ?_, ?_, ?_⟩
    · rw [hops, encounters_append, List.append_assoc]
      exact hl.trans (congrArg _ hl')
    · rw [hops, after_append]
      exact hpassed
    · rw [hops, encounters_append, trace_append, hfirst]
      exact (hbalance.mono hfailed).append hbalance'

/-- Passes that are all driven to their ends, and do not all fail, exhaust the candidates. -/
theorem exhausted_of_driven {s : Session} (hk : s.Kept) (hs : s.Settled)
    {passes : List (List Operation)}
    (hpasses : ∀ pass ∈ passes, ∀ op ∈ pass, op.isReload = false) (hdriven : s.Driven passes)
    (hlt : s.failedPasses passes < passes.length) :
    (s.after (Operation.inPasses passes)).discovery.candidates.Exhausted := by
  induction passes generalizing s with
  | nil => cases hlt
  | cons pass rest ih =>
    obtain ⟨hpass, hrest⟩ := List.forall_mem_cons.mp hpasses
    obtain ⟨⟨a, ha, hend⟩, hdriven⟩ := List.forall_mem_cons.mp hdriven
    have hkept : (s.after (.iterate :: pass)).Kept := hk.after _
    have hsettled : (s.after (.iterate :: pass)).Settled := hs.after hk _
    have hops : Operation.inPasses (pass :: rest) =
        (.iterate :: pass) ++ Operation.inPasses rest := List.flatMap_cons
    rw [hops, after_append]
    rw [failedPasses, answersOfPasses, List.countP_cons, List.length_cons] at hlt
    cases hfailed : (s.after (.iterate :: pass)).answers.any isError with
    | true =>
      rw [hfailed, if_pos rfl] at hlt
      exact ih hkept hsettled hrest hdriven (Nat.lt_of_succ_lt_succ hlt)
    | false =>
      have hnoerror := List.any_eq_false.mp hfailed
      -- The pass has ended without an error, so it has answered `none`.
      have hfinished : (s.after (.iterate :: pass)).Finished := by
        refine ⟨?_, fun e he => hnoerror _ he rfl⟩
        have hnot := hnoerror a ha
        rcases a with _ | e | provider
        · exact ha
        · exact absurd rfl hnot
        · cases hend
      have hexhausted := hsettled.exhausted hfinished
      have hreload := Operation.isReload_of_mem_inPasses hrest
      rw [(after_of_exhausted hexhausted hreload).1]
      exact hexhausted

/-- Passes that are begun when the candidates are exhausted recite the instances. -/
theorem answers_of_exhausted {s : Session} (h : s.discovery.candidates.Exhausted)
    (ha : s.discovery.authority = .unrestricted) {more pass : List Operation}
    (hmore : ∀ op ∈ more, op.isReload = false) (hpass : ∀ op ∈ pass, op.keepsPass) :
    (s.after (more ++ .iterate :: pass)).answers =
      (List.range (pass.countP Operation.isRequest)).map fun k =>
        (replayed s.discovery.instances.entries)[k]? := by
  obtain ⟨hdiscovery, -⟩ := after_of_exhausted h hmore
  have hrecites : ((s.after more).step .iterate).Recites s.discovery.instances.entries 0 := by
    refine ⟨?_, ?_, ?_, rfl, .start, rfl, fun _ => rfl, nofun⟩
    · exact hdiscovery.symm ▸ h
    · change (s.after more).discovery.authority.PermitsFrom (s.after more).world
      rw [hdiscovery, ha]
      exact Authority.permitsFrom_unrestricted _
    · exact congrArg (·.instances.entries) hdiscovery
  have hanswers := (hrecites.after hpass).answers
  rw [Nat.zero_add] at hanswers
  rw [after_append]
  exact hanswers

/-! ### From the start -/

section

variable {s : Session} {d : Discovery} {w : World} {l met : List Mention} {rs : List Resource}
  {errors : Nat} {es : List Event}

/-- The names that are still to come are among those that are listed and have not been handed
out. -/
theorem HeadsFor.length_names_le (h : s.HeadsFor d w l)
    (hl : l ⊆ mentions d.capability w.files rs) :
    (l.filterMap Mention.name?).length ≤
      (((mentions d.capability w.files rs).filterMap Mention.name?).toFinset \
        s.discovery.candidates.returned.toFinset).card := by
  obtain ⟨hnodup, hnew⟩ := h.names
  rw [← List.toFinset_card_of_nodup hnodup]
  refine Finset.card_le_card fun name hname => ?_
  have hmem : name ∈ l.filterMap Mention.name? := List.mem_toFinset.mp hname
  obtain ⟨m, hm, hmname⟩ := List.mem_filterMap.mp hmem
  rw [Finset.mem_sdiff, List.mem_toFinset, List.mem_toFinset]
  exact ⟨List.mem_filterMap.mpr ⟨m, hl hm, hmname⟩, hnew name hmem⟩

variable (hwalk : firstMentions (fun _ => false) (mentions d.capability w.files rs) = met ++ l)
  (hbalance : Balance (d.MayDecline w.registry) met errors es)
include hwalk hbalance

/-- Only listed names are taken up. -/
theorem triedNames_subset :
    triedNames es ⊆ (mentions d.capability w.files rs).filterMap Mention.name? := by
  intro name hname
  rw [hbalance.tried] at hname
  obtain ⟨m, hm, hmname⟩ := List.mem_filterMap.mp hname
  have hmem : m ∈ firstMentions (fun _ => false) (mentions d.capability w.files rs) := by
    rw [hwalk]
    exact List.mem_append_left _ hm
  exact List.mem_filterMap.mpr ⟨m, (firstMentions_sublist _ _).subset hmem, hmname⟩

/-- Errors are paid for by resources that fail and by names without a provider. -/
theorem errors_le (htried : (triedNames es).Nodup) :
    errors ≤ (rs.countP fun r => !(r.namesIn d.capability w.files).isOk) +
      ((triedNames es).toFinset \ ((madeProviders es).map Prod.fst).toFinset).card := by
  have hmade : ((madeProviders es).map Prod.fst).Nodup := htried.sublist hbalance.made
  have hsub : ((madeProviders es).map Prod.fst).toFinset ⊆ (triedNames es).toFinset := by
    intro name hname
    exact List.mem_toFinset.mpr (hbalance.made.subset (List.mem_toFinset.mp hname))
  have hfailures : (met.filterMap Mention.failure?).length ≤
      rs.countP fun r => !(r.namesIn d.capability w.files).isOk := by
    have hall := filterMap_failure?_firstMentions (fun _ => false)
      (mentions d.capability w.files rs)
    rw [hwalk, List.filterMap_append] at hall
    rw [← length_filterMap_failure?_mentions, ← hall, List.length_append]
    exact Nat.le_add_right ..
  have hpaid := hbalance.paid
  have hmet := length_filterMap_failure?_add met
  rw [← hbalance.tried] at hmet
  rw [Finset.card_sdiff_of_subset hsub, List.toFinset_card_of_nodup htried,
    List.toFinset_card_of_nodup hmade, List.length_map]
  omega

/-- When the candidates are exhausted each listed name has been taken up once. -/
theorem count_tried_of_exhausted (h : s.HeadsFor d w l)
    (hexhausted : s.discovery.candidates.Exhausted) {name : String}
    (hname : name ∈ (mentions d.capability w.files rs).filterMap Mention.name?) :
    (triedNames es).count name = 1 := by
  rw [h.searching.eq_nil_of_exhausted hexhausted, List.append_nil] at hwalk
  rw [hbalance.tried, ← hwalk]
  exact List.count_eq_one_of_mem (nodup_filterMap_name?_firstMentions _ _)
    (mem_filterMap_name?_firstMentions rfl hname)

end

end Session

/-- **Every pass ends, and few fail.** Let the discovery of a session be fresh and without
authority, let its scope always locate the same resources, and let the files and the types stay as
they are.

After any operations, reloads included, a pass comes to its end, which is an error or `none`, within
one request more than there are instances and listed names that have not been handed out. And take
any passes, one after the other, each left at any time. No more of them fail than there are
resources that fail and names that have been declined, which are listed names. If more passes than
that are driven to their ends, each listed name has been taken up exactly once, and whatever is done
then, every later pass yields the instances and then nothing. -/
theorem Session.every_pass_ends {d : Discovery} {w : World} {rs : List Resource}
    (hfresh : d.Fresh) (htoken : d.authority.token? = none)
    (hlocate : AlwaysAnswers w.files (d.scope.locate d.capability).run (.ok rs)) :
    let listed := ((mentions d.capability w.files rs).filterMap Mention.name?).toFinset
    (∀ ops : List Operation, (∀ op ∈ ops, op.Leaves w.files w.registry) →
      let s := (start d w).after ops
      let bound := s.discovery.instances.size +
        (listed \ s.discovery.candidates.returned.toFinset).card
      ∀ pass : List Operation, (∀ op ∈ pass, op.keepsPass ∧ op.Leaves w.files w.registry) →
        bound < pass.countP Operation.isRequest →
          ∃ i ≤ bound, ∃ a, (s.after (.iterate :: pass)).answers[i]? = some a ∧
            yielded? a = none) ∧
    ∀ passes : List (List Operation),
      (∀ pass ∈ passes, ∀ op ∈ pass, op.keepsPass ∧ op.Leaves w.files w.registry) →
        let t := (start d w).after (Operation.inPasses passes)
        let declined :=
          (triedNames t.events).toFinset \ ((madeProviders t.events).map Prod.fst).toFinset
        let faults := (rs.countP fun r => !(r.namesIn d.capability w.files).isOk) + declined.card
        declined ⊆ listed ∧ (∀ name ∈ declined, d.MayDecline w.registry name) ∧
        (start d w).failedPasses passes ≤ faults ∧
        ((start d w).Driven passes → faults < passes.length →
          (∀ name ∈ listed, (triedNames t.events).count name = 1) ∧
          ∀ more pass : List Operation, (∀ op ∈ more, op.isReload = false) →
            (∀ op ∈ pass, op.keepsPass) →
              (t.after (more ++ .iterate :: pass)).answers =
                (List.range (pass.countP Operation.isRequest)).map fun k =>
                  (replayed t.discovery.instances.entries)[k]?) := by
  intro listed
  have ha : d.authority = .unrestricted := by
    cases hauthority : d.authority with
    | unrestricted => rfl
    | held token party =>
      rw [hauthority] at htoken
      cases htoken
  have hkept : (start d w).Kept := kept_of_fresh hfresh w
  have hstart : (start d w).HeadsFor d w _ :=
    headsFor_of_fresh hfresh ⟨_, _, rfl⟩ ha rfl rfl hlocate
  constructor
  · intro ops hops s bound pass hpass hlt
    obtain ⟨l, hl, hheads⟩ :=
      hstart.exists_after (firstMentions_sublist _ _).subset hkept ha hlocate hops
    have hle : s.discovery.instances.size + (l.filterMap Mention.name?).length ≤ bound :=
      Nat.add_le_add_left (hheads.length_names_le hl) _
    obtain ⟨i, hi, hend⟩ :=
      exists_end_of_pass hheads (hkept.after ops) hpass (Nat.lt_of_le_of_lt hle hlt)
    exact ⟨i, Nat.le_trans hi hle, hend⟩
  · intro passes hpasses t declined faults
    have hreload : ∀ pass ∈ passes, ∀ op ∈ pass, op.isReload = false :=
      fun pass hpass op hop => Operation.isReload_of_keepsPass (hpasses pass hpass op hop).1
    have hafter : t.Kept := hkept.after _
    have htried : (triedNames t.events).Nodup := hafter.returned.sublist hafter.tried
    have hevents : t.events = (start d w).trace (Operation.inPasses passes) :=
      events_after hkept (Operation.isReload_of_mem_inPasses hreload)
    obtain ⟨l, hwalk, hheads, hbalance⟩ := hstart.passes hkept hpasses
    rw [← hevents] at hbalance
    have herrors : (start d w).failedPasses passes ≤ faults := errors_le hwalk hbalance htried
    refine ⟨?_, ?_, herrors, ?_⟩
    · intro name hname
      have hmem : name ∈ triedNames t.events := List.mem_toFinset.mp (Finset.mem_sdiff.mp hname).1
      exact List.mem_toFinset.mpr (triedNames_subset hwalk hbalance hmem)
    · intro name hname
      obtain ⟨hmem, hnot⟩ := Finset.mem_sdiff.mp hname
      exact (hbalance.declined name (List.mem_toFinset.mp hmem)).resolve_left fun hmade =>
        hnot (List.mem_toFinset.mpr hmade)
    · intro hdriven hlt
      have hexhausted : t.discovery.candidates.Exhausted := exhausted_of_driven hkept
        (settled_start d w) hreload hdriven (Nat.lt_of_le_of_lt herrors hlt)
      obtain ⟨i, c, hsetting⟩ := hheads.setting
      have hauthority : t.discovery.authority = .unrestricted :=
        (congrArg Discovery.authority hsetting).trans ha
      constructor
      · intro name hname
        exact count_tried_of_exhausted hwalk hbalance hheads hexhausted (List.mem_toFinset.mp hname)
      · intro more pass hmore hpass
        exact answers_of_exhausted hexhausted hauthority hmore hpass

/-- A scope with three resources: one with `A` and `B`, a malformed one, and one with `B` and
`C`. -/
def faultyScope : Scope :=
  .party ⟨⟨0⟩, "faulty", fun _ _ => .ok [.ofBytes ⟨"1"⟩ [0x41, 0x0a, 0x42],
    .ofBytes ⟨"2"⟩ [0x43, 0x20, 0x44], .ofBytes ⟨"3"⟩ [0x42, 0x0a, 0x43]]⟩

/-- `B` cannot be made and one resource is malformed, so two passes fail. The third one gets to `C`,
and later ones find nothing more. -/
theorem Session.every_pass_ends_faultyScope :
    let s := start (.start ⟨"x.Codec"⟩ ⟨"Codec"⟩ faultyScope .registry .unrestricted)
      (.fresh ∅ mixedTypes)
    let passes := [Operation.requests 2, Operation.requests 2, Operation.requests 3]
    let t := s.after (Operation.inPasses passes)
    (∃ i ≤ 2, ∃ a, ((s.after (Operation.pass 2)).after (Operation.pass 3)).answers[i]? = some a ∧
        yielded? a = none) ∧
      s.failedPasses passes = 2 ∧ (triedNames t.events).count "C" = 1 ∧
      (t.after (Operation.pass 3)).answers = [some (.ok ⟨"a", 1⟩), some (.ok ⟨"c", 3⟩), none] := by
  intro s passes t
  have hlocate : AlwaysAnswers (World.fresh ∅ mixedTypes).files
      (faultyScope.locate ⟨"x.Codec"⟩).run (.ok _) :=
    Scope.alwaysAnswers_locate rfl (Scope.alwaysAnswers_resources fun _ _ => rfl)
  obtain ⟨hends, hpasses⟩ := every_pass_ends (d := s.discovery) ⟨rfl, rfl⟩ rfl hlocate
  have hrequests : ∀ n, ∀ op ∈ Operation.requests n, op.keepsPass ∧ op.Leaves ∅ mixedTypes := by
    intro n op hop
    obtain rfl := List.eq_of_mem_replicate hop
    exact ⟨rfl, trivial⟩
  have hpass : ∀ n, ∀ op ∈ Operation.pass n, op.Leaves ∅ mixedTypes := by
    intro n op hop
    rcases List.mem_cons.mp hop with rfl | hop
    · trivial
    · exact (hrequests n op hop).2
  have hall : ∀ pass ∈ passes, ∀ op ∈ pass, op.keepsPass ∧ op.Leaves ∅ mixedTypes := by
    intro pass hpass
    simp only [passes, List.mem_cons, List.not_mem_nil, or_false] at hpass
    rcases hpass with rfl | rfl | rfl
    all_goals exact hrequests _
  have hdriven : s.Driven passes := by
    unfold Driven
    decide +kernel
  obtain ⟨-, -, -, hfinished⟩ := hpasses passes hall
  obtain ⟨htried, hrecited⟩ := hfinished hdriven (by decide +kernel)
  refine ⟨?_, by decide +kernel, htried "C" (by decide +kernel), ?_⟩
  · obtain ⟨i, hi, hend⟩ := hends (Operation.pass 2) (hpass 2) (Operation.requests 3)
      (hrequests 3) (by decide +kernel)
    exact ⟨i, Nat.le_trans hi (by decide +kernel), hend⟩
  · refine (hrecited [] (Operation.requests 3) nofun fun op hop => (hrequests 3 op hop).1).trans ?_
    decide +kernel

end ProviderDiscovery
