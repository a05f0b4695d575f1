import ProviderDiscovery.Proofs.Events

/-!
# Answers that the files determine

Some steps answer the same whenever they are taken on the same files, whatever has been done
before. `AlwaysAnswers` says so, and composes along the binds of a step, so the answer of a whole
operation can be computed from the answers of its parts.
-/

namespace ProviderDiscovery

/-- A step **always answers** the same on some files, and leaves them. -/
def AlwaysAnswers {α : Type} (files : FileTree) (x : Action α) (a : α) : Prop :=
  ∀ w, w.files = files → (x.run w).1 = a ∧ (x.run w).2.files = files

/-- A step that only does events leaves the files. -/
theorem DoesOnly.alwaysAnswers {α : Type} {P : Event → Prop} {files : FileTree} {x : Action α}
    {a : α} (h : DoesOnly P x) (ha : ∀ w, w.files = files → (x.run w).1 = a) :
    AlwaysAnswers files x a := by
  intro w hw
  obtain ⟨es, hafter, -⟩ := h w
  exact ⟨ha w hw, by rw [hafter, World.files_after, hw]⟩

namespace AlwaysAnswers

variable {α β ε : Type} {files : FileTree}

protected theorem pure (a : α) : AlwaysAnswers files (pure a : Action α) a :=
  fun _ hw => ⟨rfl, hw⟩

protected theorem bind {x : Action α} {f : α → Action β} {a : α} {b : β}
    (hx : AlwaysAnswers files x a) (hf : AlwaysAnswers files (f a) b) :
    AlwaysAnswers files (x >>= f) b := by
  intro w hw
  obtain ⟨ha, hfiles⟩ := hx w hw
  rw [Action.run_bind, ha]
  exact hf _ hfiles

/-- A step that goes on with what the files hold. -/
theorem get_bind {f : World → Action β} {b : β}
    (hf : ∀ w, w.files = files → AlwaysAnswers files (f w) b) :
    AlwaysAnswers files (get >>= f) b :=
  fun w hw => hf w hw w hw

/-- Steps for the members of a list, one after the other. -/
theorem mapM {f : α → Action β} {g : α → β} (l : List α)
    (h : ∀ a ∈ l, AlwaysAnswers files (f a) (g a)) :
    AlwaysAnswers files (l.mapM f) (l.map g) := by
  induction l with
  | nil => exact .pure _
  | cons a rest ih =>
    rw [List.mapM_cons, List.map_cons]
    exact .bind (h a List.mem_cons_self) <|
      .bind (ih fun b hb => h b (List.mem_cons_of_mem a hb)) (.pure _)

/-- A step that can fail goes on with what its first part answers. -/
theorem attempt_bind {x : Attempt ε α} {f : α → Attempt ε β} {a : α} {b : Except ε β}
    (hx : AlwaysAnswers files x.run (.ok a)) (hf : AlwaysAnswers files (f a).run b) :
    AlwaysAnswers files (x >>= f).run b := by
  rw [ExceptT.run_bind]
  exact .bind hx hf

/-- The first part that fails makes the whole fail. -/
theorem attempt_bind_of_error {x : Attempt ε α} {e : ε} (hx : AlwaysAnswers files x.run (.error e))
    (f : α → Attempt ε β) : AlwaysAnswers files (x >>= f).run (.error e) := by
  rw [ExceptT.run_bind]
  exact .bind hx (.pure _)

theorem attempt_pure (a : α) :
    AlwaysAnswers files (pure a : Attempt ε α).run (.ok a) :=
  .pure _

/-- An answer that is already there. -/
theorem attempt_of (a : Except ε α) :
    AlwaysAnswers files (MonadExcept.ofExcept a : Attempt ε α).run a := by
  cases a <;> exact .pure _

theorem attempt_get_bind {f : World → Attempt ε β} {b : Except ε β}
    (hf : ∀ w, w.files = files → AlwaysAnswers files (f w).run b) :
    AlwaysAnswers files (get >>= f : Attempt ε β).run b :=
  fun w hw => hf w hw w hw

end AlwaysAnswers

end ProviderDiscovery
