import ProviderDiscovery.Proofs.Answers
import ProviderDiscovery.Proofs.Candidates.Enumeration

/-!
# Scopes that answer the same on every call

A scope is **steady** on some files when it names the same resources whenever it is asked. What is
located in a steady scope does not depend on what has been done before.
-/

namespace ProviderDiscovery

namespace Scope

/-- A scope is **steady** on some files: for each name it has one answer, whatever has been done
before. -/
def IsSteady (s : Scope) (files : FileTree) : Prop :=
  ∀ name, ∃ answer, ∀ w, w.files = files → ((s.resources name).run.run w).1 = answer

theorem alwaysAnswers_resources {s : Scope} {files : FileTree} {name : String}
    {answer : Except ScopeError (List Resource)}
    (h : ∀ w, w.files = files → ((s.resources name).run.run w).1 = answer) :
    AlwaysAnswers files (s.resources name).run answer :=
  (doesOnly_resources name s).alwaysAnswers h

/-- Only a qualified name can be located. -/
theorem locate_of_not_isQualifiedName {c : CapabilityId} (h : isQualifiedName c.text = false)
    (s : Scope) : s.locate c = throw (.invalidIdentifier c.text) := by
  simp [locate, h]

/-- So it fails in every world, and nothing is asked. -/
theorem run_locate_of_not_isQualifiedName {c : CapabilityId} (h : isQualifiedName c.text = false)
    (s : Scope) (w : World) :
    (s.locate c).run.run w = (.error (.invalidIdentifier c.text), w) := by
  rw [locate_of_not_isQualifiedName h]
  rfl

/-- A qualified name is located by asking the scope for its file. -/
theorem run_locate_of_isQualifiedName {c : CapabilityId} (h : isQualifiedName c.text = true)
    (s : Scope) (w : World) :
    (s.locate c).run.run w =
      (s.resources c.resourceName).run.run (w.after [.asked s.name c.resourceName]) := by
  simp only [locate, h, Bool.not_true, Bool.false_eq_true, if_false]
  rfl

theorem alwaysAnswers_locate {s : Scope} {files : FileTree} {c : CapabilityId}
    {answer : Except ScopeError (List Resource)} (hc : isQualifiedName c.text = true)
    (h : AlwaysAnswers files (s.resources c.resourceName).run answer) :
    AlwaysAnswers files (s.locate c).run answer := by
  intro w hw
  rw [run_locate_of_isQualifiedName hc]
  exact h (w.after [.asked s.name c.resourceName]) hw

/-- A steady scope locates the same on every call. -/
theorem IsSteady.locate {s : Scope} {files : FileTree} (h : s.IsSteady files) (c : CapabilityId) :
    ∃ located, AlwaysAnswers files (s.locate c).run located := by
  cases hc : isQualifiedName c.text with
  | false =>
    rw [locate_of_not_isQualifiedName hc]
    exact ⟨_, .pure _⟩
  | true =>
    obtain ⟨answer, hanswer⟩ := h c.resourceName
    exact ⟨answer, alwaysAnswers_locate hc (alwaysAnswers_resources hanswer)⟩

end Scope

end ProviderDiscovery
