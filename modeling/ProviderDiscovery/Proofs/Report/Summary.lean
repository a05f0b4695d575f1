import Mathlib.Algebra.BigOperators.Group.List.Basic
import Mathlib.Algebra.Ring.Nat
import ProviderDiscovery.CommandLine.Execute
import ProviderDiscovery.Proofs.Candidates.Openings
import ProviderDiscovery.Proofs.Report.Survey
import ProviderDiscovery.Proofs.Text.Decimal

/-!
# The summary of a check

A check that fails says how many of how many configuration files are invalid. The rows of a check
are those of its survey, but there are more rows than files: a capability without files has a row as
well, and so has one that cannot be located, which counts as a failure (`check_summary`). So the
numbers are those of the files exactly when each capability has a file.
-/

namespace ProviderDiscovery.Report

/-! ### Files and rows -/

namespace Finding

/-- The files that were located. -/
def files (f : Finding) : List ReadFile := f.located.toOption.getD []

/-- The number of files that could not be read or are malformed. -/
def broken (f : Finding) : Nat := f.files.countP fun file => !file.2.isOk

/-- Whether nothing could be located. -/
def isUnlocated (f : Finding) : Bool := !f.located.isOk

/-- Whether there is no file. -/
def isBare (f : Finding) : Bool := f.files.isEmpty

/-- What could not be located has no files. -/
theorem isBare_of_isUnlocated {f : Finding} (h : f.isUnlocated) : f.isBare := by
  obtain ⟨capability, cause | files⟩ := f
  · rfl
  · cases h

/-- Each file has a row, and what has no file has one. -/
theorem length_rows (f : Finding) : f.rows.length = f.files.length + f.isBare.toNat := by
  obtain ⟨capability, cause | (_ | ⟨file, rest⟩)⟩ := f
  · rfl
  · rfl
  · exact List.length_map _

/-- A row fails for each file that does, and for what could not be located. -/
theorem failingRows_rows (f : Finding) :
    failingRows f.rows = f.broken + f.isUnlocated.toNat := by
  obtain ⟨capability, cause | (_ | ⟨file, rest⟩)⟩ := f
  · rfl
  · rfl
  · show ((file :: rest).map (fileRow capability)).countP _ = _
    rw [List.countP_map]
    simp only [Function.comp_def, isFailure_fileRow]
    rfl

end Finding

/-- The files that were found, in order. -/
def allFiles (found : List Finding) : List ReadFile := found.flatMap Finding.files

/-- The number of files that could not be read or are malformed. -/
def brokenFiles (found : List Finding) : Nat :=
  (allFiles found).countP fun file => !file.2.isOk

/-! ### What a survey opens -/

/-- A step **opens** the files that its answer tells. -/
def Opens {α : Type} (files : α → List Resource) (x : Action α) : Prop :=
  ∀ w, ∃ es, (x.run w).2 = w.after es ∧ openedResources es = files (x.run w).1

namespace Opens

variable {α β : Type} {files : α → List Resource}

/-- Steps one after the other: what the first opens comes first. -/
protected theorem bind {files' : β → List Resource} {x : Action α} {f : α → Action β}
    (hx : Opens files x)
    (hf : ∀ a w, ∃ es, ((f a).run w).2 = w.after es ∧
      files a ++ openedResources es = files' ((f a).run w).1) :
    Opens files' (x >>= f) := by
  intro w
  obtain ⟨es, hw, hes⟩ := hx w
  obtain ⟨fs, hw', hfs⟩ := hf (x.run w).1 (x.run w).2
  refine ⟨es ++ fs, ?_, ?_⟩
  · rw [Action.run_bind, hw', hw, World.after_after]
  · rw [openedResources_append, hes, hfs, Action.run_bind]

/-- A step whose answer is shown in another way. -/
theorem map {files' : β → List Resource} {x : Action α} {f : α → β} (hx : Opens files x)
    (hf : ∀ a, files' (f a) = files a) : Opens files' (do return f (← x)) :=
  hx.bind fun a _ => ⟨[], rfl, (List.append_nil _).trans (hf a).symm⟩

/-- Steps for the members of a list open what each of them does, in order. -/
theorem mapM {f : β → Action α} (h : ∀ b, Opens files (f b)) (l : List β) :
    Opens (·.flatMap files) (l.mapM f) := by
  induction l with
  | nil => exact fun w => ⟨[], rfl, rfl⟩
  | cons b rest ih =>
    rw [List.mapM_cons]
    refine (h b).bind fun a w => ?_
    obtain ⟨es, hw, hes⟩ := ih w
    exact ⟨es, hw, congrArg (files a ++ ·) hes⟩

end Opens

/-- Reading a file opens it. -/
theorem opens_readFile (capability : CapabilityId) (r : Resource) :
    Opens (fun file => [file.1]) (readFile capability r) :=
  fun w => ⟨[.opened r], congrArg Prod.snd (run_listedNames capability r w), rfl⟩

/-- Locating files opens none of them. -/
theorem opens_locate (scope : Scope) (capability : CapabilityId) :
    Opens (fun _ => []) (scope.locate capability).run := by
  intro w
  obtain ⟨asked, hworld, hasks⟩ := scope.doesOnly_locate_asks capability w
  exact ⟨asked, hworld, openedResources_of_asks hasks⟩

/-- A survey of a capability opens the files that it finds, in order. -/
theorem opens_survey (scope : Scope) (capability : CapabilityId) :
    Opens (·.files.map (·.1)) (survey scope capability) := by
  refine (opens_locate scope capability).bind fun located => ?_
  cases located with
  | error cause => exact fun w => ⟨[], rfl, rfl⟩
  | ok rs =>
    exact (Opens.mapM (opens_readFile capability) rs).map fun files => List.map_eq_flatMap

/-- A survey opens the files that it finds, in order. -/
theorem opens_surveyAll (scope : Scope) (names : List String) :
    Opens (fun found => (allFiles found).map (·.1)) (surveyAll scope names) := by
  have hopens := Opens.mapM (fun name => opens_survey scope ⟨name⟩) names
  simp only [allFiles, List.map_flatMap]
  exact hopens

/-! ### The numbers of a check -/

theorem sum_map_toNat {α : Type} (p : α → Bool) (l : List α) :
    (l.map fun a => (p a).toNat).sum = l.countP p := by
  induction l with
  | nil => rfl
  | cons a rest ih =>
    rw [List.map_cons, List.sum_cons, ih, List.countP_cons, Nat.add_comm]
    cases p a <;> rfl

/-- There is a row for each file, and for each capability without files. -/
theorem length_allRows (found : List Finding) :
    (allRows found).length = (allFiles found).length + found.countP Finding.isBare := by
  rw [allRows, List.length_flatMap, funext Finding.length_rows, List.sum_map_add, sum_map_toNat,
    allFiles, List.length_flatMap]

/-- A row fails for each file that does, and for each capability that could not be located. -/
theorem failingRows_allRows (found : List Finding) :
    failingRows (allRows found) = brokenFiles found + found.countP Finding.isUnlocated := by
  have hrows : failingRows (allRows found) = (found.map fun f => failingRows f.rows).sum :=
    List.countP_flatMap
  have hfiles : brokenFiles found = (found.map Finding.broken).sum := List.countP_flatMap
  rw [hrows, funext Finding.failingRows_rows, List.sum_map_add, sum_map_toNat, hfiles]

/-- The rows are as many as the files, and the failures as many as those that fail, exactly if each
capability has a file. -/
theorem numbers_eq_iff (found : List Finding) :
    failingRows (allRows found) = brokenFiles found ∧
        (allRows found).length = (allFiles found).length ↔
      ∀ f ∈ found, f.files ≠ [] := by
  -- What could not be located is among what has no files, so equal totals leave no room for it.
  have hle : found.countP Finding.isUnlocated ≤ found.countP Finding.isBare :=
    List.countP_mono_left fun f _ => Finding.isBare_of_isUnlocated
  have hbare : found.countP Finding.isBare = 0 ↔ ∀ f ∈ found, f.files ≠ [] := by
    simp [List.countP_eq_zero, Finding.isBare]
  rw [failingRows_allRows, length_allRows, ← hbare]
  omega

/-! ### The message -/

/-- The message of a check that fails. -/
def summary (failed total : Nat) : String :=
  toString failed ++ " of " ++ toString total ++ " configuration files are invalid"

/-- The words of the message. -/
theorem splitOn_summary (failed total : Nat) :
    (summary failed total).toList.splitOn ' ' =
      (toString failed).toList :: "of".toList :: (toString total).toList ::
        "configuration files are invalid".toList.splitOn ' ' := by
  have hwords : (summary failed total).toList = (toString failed).toList ++
      ' ' :: ("of".toList ++ ' ' :: ((toString total).toList ++
        ' ' :: "configuration files are invalid".toList)) := by
    simp [summary]
  rw [hwords, List.splitOn_append_cons_self_of_not_mem (Text.notMem_toString rfl failed),
    List.splitOn_append_cons_self_of_not_mem (by decide),
    List.splitOn_append_cons_self_of_not_mem (Text.notMem_toString rfl total)]

/-- The numbers can be read off the message. -/
theorem summary_inj {failed total failed' total' : Nat} :
    summary failed total = summary failed' total' ↔ failed = failed' ∧ total = total' := by
  refine ⟨fun h => ?_, fun ⟨hfailed, htotal⟩ => by rw [hfailed, htotal]⟩
  have hwords := congrArg (·.toList.splitOn ' ') h
  simp only [splitOn_summary, List.cons.injEq, String.toList_inj] at hwords
  obtain ⟨hfailed, -, htotal, -⟩ := hwords
  exact ⟨Text.toString_inj hfailed, Text.toString_inj htotal⟩

/-- How a check fails, given its report. -/
theorem exists_run_runCheck {scope : Scope} {given : List String} {w w' : World}
    {rows : List CheckRow} (h : (check scope given).run w = (.ok (.ofRows rows), w')) :
    ∃ result, (CommandLine.runCheck scope given).run w = (result, w') ∧
      (result.failure = none ↔ failingRows rows = 0) ∧
      (result.failure ≠ none →
        result.failure = some (summary (failingRows rows) rows.length)) := by
  refine ⟨CommandLine.checkResult (.ofRows rows), ?_, ?_⟩
  · rw [CommandLine.runCheck, Action.run_bind, h]
    rfl
  dsimp only [CommandLine.checkResult, CheckReport.ofRows]
  by_cases hrows : rows = []
  · rw [if_pos hrows, hrows]
    exact ⟨iff_of_true rfl rfl, fun hfails => absurd rfl hfails⟩
  · rw [if_neg hrows]
    by_cases hnone : failingRows rows = 0
    · rw [if_pos hnone]
      exact ⟨iff_of_true rfl hnone, fun hfails => absurd rfl hfails⟩
    · rw [if_neg hnone]
      exact ⟨iff_of_false (Option.some_ne_none _) hnone, fun _ => rfl⟩

/-- **What the summary of a check counts.** A check opens the files that a survey finds, each once
and in order. It fails if one of them cannot be read or is malformed, or if files could not be
located; then its message has a number of failures that counts both, and a total that counts the
capabilities without files as well as the files. These are the numbers of the files exactly if each
capability has a file. -/
theorem check_summary {scope : Scope} {given names : List String} {w : World}
    (h : chosenCapabilities w.files scope given = .ok names) :
    ∃ found es result,
      (surveyAll scope names).run w = (found, w.after es) ∧
      openedResources es = (allFiles found).map (·.1) ∧
      (CommandLine.runCheck scope given).run w = (result, w.after es) ∧
      (result.failure = none ↔
        brokenFiles found = 0 ∧ found.countP Finding.isUnlocated = 0) ∧
      (result.failure ≠ none → result.failure = some (summary
        (brokenFiles found + found.countP Finding.isUnlocated)
        ((allFiles found).length + found.countP Finding.isBare))) ∧
      (result.failure ≠ none →
        (result.failure = some (summary (brokenFiles found) (allFiles found).length) ↔
          ∀ f ∈ found, f.files ≠ [])) := by
  obtain ⟨es, hworld, hes⟩ := opens_surveyAll scope names w
  obtain ⟨result, hrun, hnone, hsome⟩ := exists_run_runCheck (run_check h)
  generalize (surveyAll scope names).run w = surveyed at *
  obtain ⟨found, w'⟩ := surveyed
  obtain rfl : w' = w.after es := hworld
  refine ⟨found, es, result, rfl, hes, hrun, ?_, fun hfails => ?_, fun hfails => ?_⟩
  · rw [hnone, failingRows_allRows, Nat.add_eq_zero_iff]
  · rw [hsome hfails, failingRows_allRows, length_allRows]
  · rw [hsome hfails, Option.some_inj, summary_inj, numbers_eq_iff]

/-- A malformed file, a capability without files and one that is not a name: one file, and two
failures in three rows. -/
theorem check_summary_threeCapabilities :
    let scope : Scope := .memory "m" ⟨[("a.C", ["bad name"])]⟩ none
    let given := ["a.C", "x.M", "../y"]
    chosenCapabilities ∅ scope given = .ok given ∧
      ((surveyAll scope given).run (.fresh ∅ ∅)).1.map (fun f => (f.files.length, f.broken)) =
        [(1, 1), (0, 0), (0, 0)] ∧
      ((CommandLine.runCheck scope given).run (.fresh ∅ ∅)).1.failure =
        some "2 of 3 configuration files are invalid" := by
  intro scope given
  have hnames : chosenCapabilities ∅ scope given = .ok given := rfl
  have hfound : ((surveyAll scope given).run (.fresh ∅ ∅)).1.map
      (fun f => (f.files.length, f.broken)) = [(1, 1), (0, 0), (0, 0)] := rfl
  obtain ⟨found, es, result, hsurvey, -, hrun, hnone, hmessage, -⟩ :=
    check_summary (w := .fresh ∅ ∅) hnames
  obtain rfl : _ = found := congrArg Prod.fst hsurvey
  have hfails : result.failure ≠ none := fun h => absurd (hnone.mp h).1 (by decide)
  refine ⟨hnames, hfound, ?_⟩
  rw [hrun, hmessage hfails]
  show some (summary 2 3) = _
  rfl

/-- The numbers are not those of the files: a malformed file and a capability without files are
said to be two files, one of which is invalid. -/
theorem check_counts_missing :
    let scope : Scope := .memory "m" ⟨[("a.C", ["bad name"])]⟩ none
    let found := ((surveyAll scope ["a.C", "x.M"]).run (.fresh ∅ ∅)).1
    brokenFiles found = 1 ∧ (allFiles found).length = 1 ∧
      ((CommandLine.runCheck scope ["a.C", "x.M"]).run (.fresh ∅ ∅)).1.failure =
        some "1 of 2 configuration files are invalid" :=
  ⟨rfl, rfl, rfl⟩

end ProviderDiscovery.Report
