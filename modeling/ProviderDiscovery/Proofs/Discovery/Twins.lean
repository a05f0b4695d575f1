import ProviderDiscovery.Proofs.Discovery.InStep
import ProviderDiscovery.Proofs.Discovery.Refinement

/-!
# Twin sessions

Two discoveries are twins when they are the same, besides the scopes that they look in and how often
they have been reloaded: once the resources have been located, the scope makes no difference, and
the number of reloads never makes one. In level worlds twins go alongside, and so do the sessions
with them, through any operations (`Session.Twin.after`). A reload brings the scopes back in, so it
keeps twins only if they have one scope.
-/

namespace ProviderDiscovery

variable {H : Handle → Prop} {scope scope' : Scope} {k : Nat}

namespace Discovery

/-- Discoveries are **twins** in two scopes when they are the same besides, and the one has been
reloaded a number of times more: the instances have the same entries, and the candidates are
twins. -/
structure Twin (H : Handle → Prop) (scope scope' : Scope) (k : Nat) (d d' : Discovery) :
    Prop where
  scope_eq : d.scope = scope
  twin_eq : d' = { d with scope := scope', instances := d'.instances, candidates := d'.candidates }
  entries_eq : d.instances.entries = d'.instances.entries
  generation_eq : d.instances.generation = d'.instances.generation + k
  candidates : Candidates.Twin H scope scope' d.candidates d'.candidates
  resolver : d.resolver.Within H
  authority : d.authority.Within H

namespace Twin

variable {d d' : Discovery}

/-- A **search** goes alongside for twins. -/
theorem nextCandidate (h : Twin H scope scope' k d d') :
    Alongside H (·.Within H) (fun a b => a.1 = b.1 ∧ Twin H scope scope' k a.2 b.2)
      d.nextCandidate d'.nextCandidate := by
  have hknown : d'.instances.contains = d.instances.contains := by
    funext name
    rw [Instances.contains, Instances.contains, Instances.get?, Instances.get?, h.entries_eq]
  have hsearch := Authority.alongside_run (T := (·.Within H)) h.authority d.capability h.candidates
    (h.candidates.next d.instances.contains)
  -- What is left of the twin are its instances and candidates.
  obtain ⟨hscope, htwin, hentries, hgeneration, -, hresolver, hauthority⟩ := h
  generalize d'.instances = i', d'.candidates = c' at htwin hknown hentries hgeneration hsearch
  subst htwin
  unfold Discovery.nextCandidate
  simp only [hknown]
  refine hsearch.bind ?_
  rintro ⟨answer, c₁⟩ ⟨_, c₁'⟩ ⟨rfl, hc₁⟩
  exact .pure ⟨rfl, hscope, rfl, hentries, hgeneration, hc₁, hresolver, hauthority⟩

/-- An **acceptance** goes alongside for twins. -/
theorem acceptName (h : Twin H scope scope' k d d') (name : String) :
    Alongside H (·.Within H) (fun a b => a.1 = b.1 ∧ Twin H scope scope' k a.2 b.2)
      (d.acceptName name) (d'.acceptName name) := by
  have hinstances : d.instances.Twin d.instances.generation d'.instances.generation d'.instances :=
    ⟨h.entries_eq, rfl, rfl⟩
  have haccept := Authority.alongside_run (T := (·.Within H)) h.authority d.capability hinstances
    (alongside_accept (fun _ => id) h.resolver d.contract d.capability name hinstances)
  obtain ⟨hscope, htwin, -, hgeneration, hcandidates, hresolver, hauthority⟩ := h
  generalize d'.instances = i', d'.candidates = c' at htwin hgeneration hcandidates haccept
  subst htwin
  unfold Discovery.acceptName
  refine haccept.bind ?_
  rintro ⟨answer, i₁⟩ ⟨_, i₁'⟩ ⟨rfl, hi₁⟩
  refine .pure ⟨rfl, hscope, rfl, hi₁.entries_eq, ?_, hcandidates, hresolver, hauthority⟩
  exact hi₁.generation_eq.trans (hgeneration.trans (congrArg (· + k) hi₁.generation'_eq.symm))

/-- A **step** goes alongside for twins. -/
theorem advance (h : Twin H scope scope' k d d') :
    Alongside H (·.Within H) (fun a b => a.1 = b.1 ∧ Twin H scope scope' k a.2 b.2)
      d.advance d'.advance := by
  refine h.nextCandidate.bind ?_
  rintro ⟨answer, d₁⟩ ⟨_, d₁'⟩ ⟨rfl, h₁⟩
  rcases answer with e | _ | candidate
  · exact .pure ⟨rfl, h₁⟩
  · exact .pure ⟨rfl, h₁⟩
  · refine (Alongside.record (callsWithin_of_calls_eq_false fun _ => rfl)).bind fun _ _ _ => ?_
    refine (h₁.acceptName candidate.name).bind ?_
    rintro ⟨answer, d₂⟩ ⟨_, d₂'⟩ ⟨rfl, h₂⟩
    exact .pure ⟨rfl, h₂⟩

/-- Twins in one scope stay twins when both are reloaded. -/
theorem reload (h : Twin H scope scope k d d') (hscope : scope.Within H) :
    Twin H scope scope k d.reload d'.reload := by
  obtain ⟨rfl, htwin, -, hgeneration, -, hresolver, hauthority⟩ := h
  generalize d'.instances = i', d'.candidates = c' at htwin hgeneration
  subst htwin
  refine ⟨rfl, rfl, rfl, ?_, ⟨rfl, rfl, .inr ⟨rfl, hscope⟩⟩, hresolver, hauthority⟩
  exact (congrArg (· + 1) hgeneration).trans (Nat.add_right_comm ..)

end Twin

end Discovery

/-- A request to a pass goes alongside for twins. -/
theorem Pass.alongside_next {d d' : Discovery} (h : Discovery.Twin H scope scope' k d d')
    (p : Pass) :
    Alongside H (·.Within H)
      (fun a b => a.1 = b.1 ∧ a.2.1 = b.2.1 ∧ Discovery.Twin H scope scope' k a.2.2 b.2.2)
      (p.next d) (p.next d') := by
  have hslot : d'.instances.getIndex? p.position = d.instances.getIndex? p.position := by
    rw [Instances.getIndex?, Instances.getIndex?, h.entries_eq]
  unfold Pass.next
  split
  · exact .pure ⟨rfl, rfl, h⟩
  rw [hslot]
  split
  · exact .pure ⟨rfl, rfl, h⟩
  refine h.advance.bind ?_
  rintro ⟨answer, d₁⟩ ⟨_, d₁'⟩ ⟨rfl, h₁⟩
  have hsize : d₁'.instances.size = d₁.instances.size := congrArg List.length h₁.entries_eq.symm
  rcases answer with e | _ | provider
  · exact .pure ⟨rfl, rfl, h₁⟩
  · exact .pure ⟨rfl, rfl, h₁⟩
  · exact .pure ⟨rfl, by rw [hsize], h₁⟩

/-- The types that come in meanwhile make their providers through the given parties. -/
def Operation.Within (op : Operation) (H : Handle → Prop) : Prop :=
  match op with
  | .meanwhile _ registry _ => registry.Within H
  | _ => True

theorem Operation.within_true (op : Operation) : op.Within fun _ => True := by
  cases op with
  | meanwhile files registry others => exact registry.within_true
  | _ => trivial

namespace Session

/-- Sessions are **twins** when their discoveries are, their worlds are level, and the pass in hand
has given the same answers. -/
structure Twin (H : Handle → Prop) (scope scope' : Scope) (k : Nat) (s s' : Session) :
    Prop where
  discovery : Discovery.Twin H scope scope' k s.discovery s'.discovery
  world : s.world.Level H (·.Within H) s'.world
  pass : s.pass = s'.pass
  answers : s.answers = s'.answers

/-- Sessions have one **record** when they go on in the same world, and the same has been done in
them since the last reload. -/
structure SameRecord (s s' : Session) : Prop where
  world : s.world = s'.world
  events : s.events = s'.events

/-- Sessions with a fresh discovery are twins, however often it has been reloaded. -/
theorem twin_of_fresh {d : Discovery} (hfresh : d.Fresh) {i : Instances Provider}
    (hentries : i.entries = []) (hgeneration : d.instances.generation = i.generation + k)
    (w : World) :
    Twin (fun _ => True) d.scope d.scope k (start d w) (start { d with instances := i } w) := by
  have hscope : d.candidates.scope = d.scope := congrArg Candidates.scope hfresh.candidates
  have hcandidates : d.candidates.Twin (fun _ => True) d.scope d.scope d.candidates :=
    hscope ▸ .refl (.inr fun _ _ _ _ => trivial)
  refine ⟨⟨rfl, rfl, hfresh.entries.trans hentries.symm, hgeneration, hcandidates,
    d.resolver.within_true, fun _ _ _ => trivial⟩, .refl w.registry.within_true, rfl, rfl⟩

namespace Twin

variable {s s' : Session}

/-- A request to the pass in hand keeps sessions twins. -/
theorem next (h : Twin H scope scope' k s s') :
    Twin H scope scope' k s.next s'.next ∧ s.done .next = s'.done .next ∧
      (s.SameRecord s' → s.next.SameRecord s'.next) := by
  cases hp : s.pass with
  | none =>
    have hp' : s'.pass = none := h.pass.symm.trans hp
    rw [next_of_pass_eq_none hp, next_of_pass_eq_none hp', done_next_of_pass_eq_none hp,
      done_next_of_pass_eq_none hp']
    exact ⟨h, rfl, id⟩
  | some p =>
    have hp' : s'.pass = some p := h.pass.symm.trans hp
    obtain ⟨⟨answer, p₁, d₁⟩, ⟨_, _, d₁'⟩, es, hrun, hrun', ⟨rfl, rfl, hd₁⟩, -⟩ :=
      Pass.alongside_next h.discovery p s.world s'.world h.world
    rw [next_of_run hp hrun, next_of_run hp' hrun', done_next_of_run hp hrun,
      done_next_of_run hp' hrun']
    refine ⟨⟨hd₁, h.world.after es, rfl, congrArg (· ++ [answer]) h.answers⟩, rfl, fun hr => ?_⟩
    exact ⟨congrArg (·.after es) hr.world, congrArg (· ++ es) hr.events⟩

/-- Each operation keeps sessions twins, a reload if they have one scope. -/
theorem step (h : Twin H scope scope' k s s') {op : Operation} (hop : op.Within H)
    (hreload : op.isReload → scope' = scope ∧ scope.Within H) :
    Twin H scope scope' k (s.step op) (s'.step op) ∧ s.done op = s'.done op ∧
      (s.SameRecord s' → (s.step op).SameRecord (s'.step op)) := by
  cases op with
  | iterate => exact ⟨⟨h.discovery, h.world, rfl, rfl⟩, rfl, fun hr => ⟨hr.world, hr.events⟩⟩
  | next => exact h.next
  | remove => exact ⟨h, rfl, id⟩
  | reload =>
    obtain ⟨rfl, hscope⟩ := hreload rfl
    exact ⟨⟨h.discovery.reload hscope, h.world, rfl, rfl⟩, rfl, fun hr => ⟨hr.world, rfl⟩⟩
  | meanwhile files registry others =>
    refine ⟨⟨h.discovery, (h.world.after others).changed files hop, h.pass, h.answers⟩, rfl,
      fun hr => ⟨?_, hr.events⟩⟩
    rw [Session.step, Session.step, hr.world]

/-- **Twin sessions stay twins** through any run of operations, and do the same in it. -/
theorem after (h : Twin H scope scope' k s s') {ops : List Operation}
    (hops : ∀ op ∈ ops, op.Within H)
    (hreload : ∀ op ∈ ops, op.isReload → scope' = scope ∧ scope.Within H) :
    Twin H scope scope' k (s.after ops) (s'.after ops) ∧ s.trace ops = s'.trace ops ∧
      (s.SameRecord s' → (s.after ops).SameRecord (s'.after ops)) := by
  induction ops generalizing s s' with
  | nil => exact ⟨h, rfl, id⟩
  | cons op rest ih =>
    obtain ⟨hstep, hdone, hrecord⟩ :=
      h.step (hops op List.mem_cons_self) (hreload op List.mem_cons_self)
    obtain ⟨hafter, htrace, hrecords⟩ :=
      ih hstep (fun op' hop' => hops op' (List.mem_cons_of_mem _ hop'))
        (fun op' hop' => hreload op' (List.mem_cons_of_mem _ hop'))
    refine ⟨hafter, ?_, fun hr => hrecords (hrecord hr)⟩
    rw [trace, trace, hdone, htrace]

end Twin

end Session

end ProviderDiscovery
