import ProviderDiscovery.Proofs.Answers
import ProviderDiscovery.Proofs.Candidates.Mentions
import ProviderDiscovery.Report.Providers

/-!
# The providers that a list shows

A list gathers the first mentions in the located resources: it shows all of them if no resource
fails, and else it is the first failure. `answer_providers` says so for a scope whose answer is
known.
-/

namespace ProviderDiscovery

/-- Reading a resource for its names answers what the files hold. -/
theorem alwaysAnswers_listedNames (capability : CapabilityId) (files : FileTree) (r : Resource) :
    AlwaysAnswers files (listedNames capability r) (r.namesIn capability files) := by
  rintro w rfl
  exact ⟨rfl, rfl⟩

namespace Report

/-- Whether a name has been found. -/
def isFound (found : List Candidate) (name : String) : Bool := found.any (·.name = name)

theorem isFound_append_singleton (found : List Candidate) (candidate : Candidate) :
    isFound (found ++ [candidate]) =
      fun name => isFound found name || name == candidate.name := by
  funext name
  simp [isFound, Bool.beq_eq_decide_eq, eq_comm]

/-- The names of one resource are kept where they are mentioned first. -/
theorem freshCandidates_eq_append (id : ResourceId) (names : List String)
    (found : List Candidate) (l : List Mention) :
    ∃ more, freshCandidates id found names = found ++ more ∧
      firstMentions (isFound found) ((names.map fun name => .ok ⟨name, id⟩) ++ l) =
        more.map .ok ++ firstMentions (isFound (found ++ more)) l := by
  induction names generalizing found with
  | nil => exact ⟨[], by simp [freshCandidates], by simp⟩
  | cons name rest ih =>
    rw [freshCandidates, List.map_cons, List.cons_append, firstMentions]
    by_cases hname : isFound found name
    · obtain ⟨more, hmore, hfirst⟩ := ih found
      rw [if_pos hname]
      exact ⟨more, (if_pos hname).trans hmore, hfirst⟩
    · obtain ⟨more, hmore, hfirst⟩ := ih (found ++ [⟨name, id⟩])
      rw [List.append_assoc] at hmore hfirst
      rw [isFound_append_singleton] at hfirst
      rw [if_neg hname]
      exact ⟨⟨name, id⟩ :: more, (if_neg hname).trans hmore, congrArg (_ :: ·) hfirst⟩

/-- Collecting gathers the first mentions of names that have not been found before. -/
theorem alwaysAnswers_collect (capability : CapabilityId) (files : FileTree) (rs : List Resource)
    (found : List Candidate) :
    AlwaysAnswers files (collect capability rs found)
      ((gathered (firstMentions (isFound found) (mentions capability files rs))).map
        (found ++ ·)) := by
  induction rs generalizing found with
  | nil =>
    have hnone : (gathered (firstMentions (isFound found) (mentions capability files []))).map
        (found ++ ·) = .ok found := congrArg Except.ok (List.append_nil found)
    rw [hnone, collect]
    exact .pure _
  | cons r rest ih =>
    rw [collect]
    refine .bind (alwaysAnswers_listedNames capability files r) ?_
    cases hr : r.namesIn capability files with
    | error e =>
      rw [mentions_cons_of_error hr]
      exact .pure _
    | ok names =>
      obtain ⟨more, hmore, hfirst⟩ :=
        freshCandidates_eq_append r.id names found (mentions capability files rest)
      have hmap : ∀ answer : Except DiscoveryError (List Candidate),
          (answer.map (more ++ ·)).map (found ++ ·) = answer.map (found ++ more ++ ·) := by
        rintro (e | l)
        · rfl
        · exact congrArg Except.ok (List.append_assoc ..).symm
      rw [mentions_cons_of_ok hr, hfirst, gathered_map_ok_append, hmap, ← hmore]
      exact ih _

/-- **The list gathers the first mentions** in the located resources. -/
theorem alwaysAnswers_providers {scope : Scope} {capability : CapabilityId} {files : FileTree}
    {rs : List Resource}
    (h : AlwaysAnswers files (scope.locate capability).run (.ok rs)) :
    AlwaysAnswers files (providers scope capability)
      (gathered (firstMentions (fun _ => false) (mentions capability files rs))) := by
  have hcollect := alwaysAnswers_collect capability files rs []
  have hmap : ∀ answer : Except DiscoveryError (List Candidate),
      answer.map ([] ++ ·) = answer := by
    rintro (e | l) <;> rfl
  rw [hmap] at hcollect
  exact .bind h hcollect

/-- A scope that cannot be asked makes the list fail. -/
theorem alwaysAnswers_providers_of_error {scope : Scope} {capability : CapabilityId}
    {files : FileTree} {cause : ScopeError}
    (h : AlwaysAnswers files (scope.locate capability).run (.error cause)) :
    AlwaysAnswers files (providers scope capability) (.error ⟨capability, .scope cause⟩) :=
  .bind h (.pure _)

end Report

end ProviderDiscovery
