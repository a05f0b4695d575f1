import ProviderDiscovery.Proofs.Discovery.Session

/-!
# The numbers of providers

A provider is numbered by all calls of factories so far, whoever has them called. So what is made in
a step has a number that none of the providers before it has. `Numbers` says so of a step, and
composes along the binds of a step. A session therefore only ever takes in instances with new
numbers (`Session.Kept.numbered_step`), whatever authority it is under and whatever others do.
-/

namespace ProviderDiscovery

/-! ### Steps that number what they make -/

/-- Events **number** what is made in them, after a world, when each number is that of a call of a
factory among them. -/
def NumberedFrom (w : World) (es : List Event) : Prop :=
  ∀ slot ∈ madeProviders es, w.constructed.length < slot.2.serial ∧
    slot.2.serial ≤ (w.after es).constructed.length

namespace NumberedFrom

variable {w : World} {es fs : List Event}

/-- There is nothing to number where nothing is made. -/
theorem of_made_eq_nil (h : madeProviders es = []) : NumberedFrom w es := by
  rw [NumberedFrom, h]
  exact nofun

theorem append (hes : NumberedFrom w es) (hfs : NumberedFrom (w.after es) fs) :
    NumberedFrom w (es ++ fs) := by
  intro slot hslot
  rw [← World.after_after]
  have hmore := World.length_constructed_after (w.after es) fs
  rw [madeProviders_append] at hslot
  rcases List.mem_append.mp hslot with hslot | hslot
  · obtain ⟨hlt, hle⟩ := hes slot hslot
    exact ⟨hlt, by omega⟩
  · obtain ⟨hlt, hle⟩ := hfs slot hslot
    have hbefore := World.length_constructed_after w es
    exact ⟨by omega, hle⟩

end NumberedFrom

/-- A step **numbers** what it makes by the calls of factories. -/
def Numbers {α : Type} (x : Action α) : Prop :=
  ∀ w, ∃ es, (x.run w).2 = w.after es ∧ NumberedFrom w es

namespace Numbers

variable {α β : Type}

protected theorem pure (a : α) : Numbers (pure a : Action α) :=
  fun _ => ⟨[], rfl, .of_made_eq_nil rfl⟩

protected theorem bind {x : Action α} {f : α → Action β} (hx : Numbers x)
    (hf : ∀ a, Numbers (f a)) : Numbers (x >>= f) := by
  intro w
  obtain ⟨es, hworld, hes⟩ := hx w
  obtain ⟨fs, hworld', hfs⟩ := hf (x.run w).1 (w.after es)
  refine ⟨es ++ fs, ?_, hes.append hfs⟩
  rw [Action.run_bind, hworld, hworld', World.after_after]

end Numbers

/-! ### The steps of a discovery -/

/-- An acceptance numbers what it makes: its factory is called once. -/
theorem numbers_accept (r : Resolver) (contract : Contract) (capability : CapabilityId)
    (name : String) (c : Instances Provider) :
    Numbers (accept r contract capability name c) := by
  intro w
  obtain ⟨asked, calls, es, hrun, hcalled, hmade, -⟩ :=
    run_accept r contract capability name c w
  refine ⟨es, by rw [hrun], fun slot hslot => ?_⟩
  rw [hmade] at hslot
  rw [World.length_constructed_after, hcalled]
  generalize r.verdict contract w.registry asked calls name = v at hslot ⊢
  cases v with
  | provided value =>
    rw [List.mem_singleton.mp hslot]
    exact ⟨Nat.lt_succ_self _, Nat.le_refl _⟩
  | notFound => cases hslot
  | notAssignable => cases hslot
  | failed cause => cases hslot

/-- Under any authority a step goes on numbering. -/
theorem Authority.numbers_run {σ α : Type} {a : Authority} {step : σ → Action (α × σ)} {s : σ}
    (hstep : Numbers (step s)) (capability : CapabilityId) :
    Numbers (a.run capability step s) := by
  intro w
  have hentry : NumberedFrom w a.entry :=
    .of_made_eq_nil (unseen_of_isSearch fun _ => isSearch_of_mem_entry).made
  by_cases hruns : (a.entranceIn w).runs = 0
  · refine ⟨a.entry, ?_, hentry⟩
    rw [run_of_runs_eq_zero hruns, enter_eq_after_entry]
  · obtain ⟨es, hworld, hes⟩ := hstep (w.after a.entry)
    refine ⟨a.entry ++ es, ?_, hentry.append hes⟩
    rw [run_of_runs_ne_zero hruns, enter_eq_after_entry, hworld, World.after_after]

/-- A **step of a discovery** numbers what it makes. -/
theorem Discovery.numbers_advance {d : Discovery} (hu : d.candidates.upcoming = none) :
    Numbers d.advance := by
  have hsearch : Numbers d.nextCandidate := fun w => by
    obtain ⟨answer, c, es, handed, hrun, hes, -⟩ := d.run_nextCandidate w hu
    exact ⟨es, by rw [hrun], .of_made_eq_nil (unseen_of_isSearch hes).made⟩
  refine hsearch.bind ?_
  rintro ⟨answer, d₁⟩
  rcases answer with e | _ | candidate
  · exact .pure _
  · exact .pure _
  · have htaken : Numbers (record (.accepting candidate.name candidate.resource)) :=
      fun w => ⟨[_], rfl, .of_made_eq_nil rfl⟩
    refine htaken.bind fun _ => .bind ?_ fun _ => .pure _
    exact (Authority.numbers_run (numbers_accept _ _ _ _ _) _).bind fun _ => .pure _

theorem Pass.numbers_next {d : Discovery} (hu : d.candidates.upcoming = none) (p : Pass) :
    Numbers (p.next d) := by
  unfold Pass.next
  split
  · exact .pure _
  split
  · exact .pure _
  refine (Discovery.numbers_advance hu).bind ?_
  rintro ⟨answer, d₁⟩
  rcases answer with e | _ | provider <;> exact .pure _

/-! ### Sessions -/

namespace Session

/-- Factories have been called as often as before an operation, or more often. -/
theorem Kept.constructed_le_step {s : Session} (h : s.Kept) (op : Operation) :
    s.world.constructed.length ≤ (s.step op).world.constructed.length := by
  have hmore : ∀ es, s.world.constructed.length ≤ (s.world.after es).constructed.length :=
    fun es => by
      rw [World.length_constructed_after]
      exact Nat.le_add_right ..
  cases op with
  | next =>
    rw [Session.step]
    cases hp : s.pass with
    | none => exact (next_of_pass_eq_none hp).symm ▸ Nat.le_refl _
    | some p =>
      obtain ⟨answer, p', d', es, -, hnext⟩ := next_of_pass hp h.upcoming
      rw [hnext]
      exact hmore es
  | meanwhile files registry others => exact hmore others
  | iterate => exact Nat.le_refl _
  | remove => exact Nat.le_refl _
  | reload => exact Nat.le_refl _

/-- **Only instances with new numbers come in** with an operation. -/
theorem Kept.numbered_step {s : Session} (h : s.Kept) (op : Operation) :
    ∀ slot ∈ (s.step op).discovery.instances.entries,
      slot ∈ s.discovery.instances.entries ∨ s.world.constructed.length < slot.2.serial ∧
        slot.2.serial ≤ (s.step op).world.constructed.length := by
  cases op with
  | next =>
    rw [Session.step]
    cases hp : s.pass with
    | none =>
      rw [next_of_pass_eq_none hp]
      exact fun slot hslot => .inl hslot
    | some p =>
      obtain ⟨answer, p', d', es, hrun, hpassed⟩ := p.run_next s.world h.upcoming
      obtain ⟨answer', hd⟩ := hpassed.advanced h.upcoming
      obtain ⟨fs, hworld, hnumbered⟩ := p.numbers_next h.upcoming s.world
      obtain rfl : es = fs := World.after_inj ((congrArg Prod.snd hrun).symm.trans hworld)
      rw [next_of_run hp hrun]
      intro slot hslot
      rw [hd.entries] at hslot
      exact (List.mem_append.mp hslot).imp_right (hnumbered slot)
  | reload => exact fun slot hslot => by cases hslot
  | iterate => exact fun slot hslot => .inl hslot
  | remove => exact fun slot hslot => .inl hslot
  | meanwhile files registry others => exact fun slot hslot => .inl hslot

end Session

end ProviderDiscovery
