import Mathlib.Algebra.BigOperators.Group.List.Basic
import Mathlib.Algebra.Ring.Nat
import Mathlib.Tactic.Choose
import ProviderDiscovery.Proofs.Report.Providers
import ProviderDiscovery.Proofs.Report.Survey
import ProviderDiscovery.Proofs.Scope.Steady

/-!
# Checks and lists agree

A check reads every resource by itself and goes on after a failure; a list goes through all of them
at once, drops repetitions and ends at the first failure. Both see the same: a check without
failures is a list that succeeds, the first failure of a check is the error of the list, and the
providers that a check counts are those of the list with their repetitions.
-/

namespace ProviderDiscovery.Report

/-- The row of a resource when the files are such. -/
def resourceRow (capability : CapabilityId) (files : FileTree) (r : Resource) : CheckRow :=
  fileRow capability (r, r.namesIn capability files)

/-- The rows of a capability, given what is located for it: one for each resource, in order, or a
single one if there is none. -/
def locatedRows (capability : CapabilityId) (files : FileTree) :
    Except ScopeError (List Resource) → List CheckRow
  | .error cause => [⟨capability, none, .unlocated cause⟩]
  | .ok [] => [⟨capability, none, .missing⟩]
  | .ok rs => rs.map (resourceRow capability files)

/-! ### What a check answers -/

section Answers

variable {scope : Scope} {files : FileTree}

/-- What a survey finds, given what is located. -/
def foundIn (capability : CapabilityId) (files : FileTree)
    (located : Except ScopeError (List Resource)) : Finding :=
  ⟨capability, located.map fun rs => rs.map fun r => (r, r.namesIn capability files)⟩

/-- What is found has the rows of what is located. -/
theorem rows_foundIn (capability : CapabilityId) (files : FileTree)
    (located : Except ScopeError (List Resource)) :
    (foundIn capability files located).rows = locatedRows capability files located := by
  match located with
  | .error cause => rfl
  | .ok [] => rfl
  | .ok (r :: rest) => exact List.map_map

/-- A survey of one capability finds what is located for it. -/
theorem alwaysAnswers_survey {capability : CapabilityId}
    {located : Except ScopeError (List Resource)}
    (h : AlwaysAnswers files (scope.locate capability).run located) :
    AlwaysAnswers files (survey scope capability) (foundIn capability files located) := by
  refine .bind h ?_
  cases located with
  | error cause => exact .pure _
  | ok rs =>
    exact .bind (.mapM rs fun r _ => .bind (alwaysAnswers_listedNames capability files r) (.pure _))
      (.pure _)

/-- A check of capabilities that are chosen reports their rows, one capability after the other, and
counts those that fail. -/
theorem alwaysAnswers_check {located : CapabilityId → Except ScopeError (List Resource)}
    {given names : List String} (hnames : chosenCapabilities files scope given = .ok names)
    (h : ∀ name ∈ names, AlwaysAnswers files (scope.locate ⟨name⟩).run (located ⟨name⟩)) :
    let rows := names.flatMap fun name => locatedRows ⟨name⟩ files (located ⟨name⟩)
    AlwaysAnswers files (check scope given) (.ok (.ofRows rows)) := by
  rintro rows w rfl
  have hsurvey : AlwaysAnswers w.files (surveyAll scope names)
      (names.map fun name => foundIn ⟨name⟩ w.files (located ⟨name⟩)) :=
    .mapM names fun name hname => alwaysAnswers_survey (h name hname)
  have hrows : allRows (names.map fun name => foundIn ⟨name⟩ w.files (located ⟨name⟩)) = rows := by
    rw [allRows, List.flatMap_map]
    exact List.flatMap_congr fun name _ => rows_foundIn ..
  obtain ⟨hfound, hfiles⟩ := hsurvey w rfl
  rw [run_check hnames, hfound, hrows]
  exact ⟨rfl, hfiles⟩

end Answers

/-! ### What the rows say -/

section Rows

variable (capability : CapabilityId) (files : FileTree) (rs : List Resource)

/-- A resource that is located has its row. -/
theorem resourceRow_mem_locatedRows {rs : List Resource} {r : Resource} (hr : r ∈ rs) :
    resourceRow capability files r ∈ locatedRows capability files (.ok rs) := by
  cases rs with
  | nil => cases hr
  | cons first rest => exact List.mem_map_of_mem hr

/-- A row fails if and only if its resource does. -/
theorem isFailure_resourceRow (r : Resource) :
    (resourceRow capability files r).verdict.isFailure = !(r.namesIn capability files).isOk :=
  isFailure_fileRow ..

/-- The rows that fail are those of the resources that fail. -/
theorem failingRows_locatedRows :
    failingRows (locatedRows capability files (.ok rs)) =
      rs.countP fun r => !(r.namesIn capability files).isOk := by
  cases rs with
  | nil => rfl
  | cons r rest =>
    rw [failingRows, locatedRows, List.countP_map]
    · simp only [Function.comp_def, isFailure_resourceRow]
    · simp

/-- The first row that fails is that of the first failure. -/
theorem find?_isFailure_locatedRows :
    ((locatedRows capability files (.ok rs)).find? (·.verdict.isFailure)).map (·.verdict) =
      (firstFailure? (mentions capability files rs)).map .invalid := by
  have hmap : ((rs.map (resourceRow capability files)).find? (·.verdict.isFailure)).map
      (·.verdict) = (firstFailure? (mentions capability files rs)).map .invalid := by
    induction rs with
    | nil => rfl
    | cons r rest ih =>
      have hrow := isFailure_resourceRow capability files r
      cases hr : r.namesIn capability files with
      | error e =>
        rw [hr] at hrow
        rw [firstFailure?_mentions_cons_of_error hr, List.map_cons, List.find?_cons, hrow,
          resourceRow, hr]
        rfl
      | ok names =>
        rw [hr] at hrow
        rw [firstFailure?_mentions_cons_of_ok hr, List.map_cons, List.find?_cons, hrow]
        exact ih
  cases rs with
  | nil => rfl
  | cons r rest => exact hmap

/-- If nothing fails, the rows count all names that are mentioned. -/
theorem sum_providers_locatedRows (h : firstFailure? (mentions capability files rs) = none) :
    ((locatedRows capability files (.ok rs)).map (·.verdict.providers)).sum =
      ((mentions capability files rs).filterMap Mention.name?).length := by
  have hmap : ((rs.map (resourceRow capability files)).map (·.verdict.providers)).sum =
      ((mentions capability files rs).filterMap Mention.name?).length := by
    induction rs with
    | nil => rfl
    | cons r rest ih =>
      cases hr : r.namesIn capability files with
      | error e =>
        rw [firstFailure?_mentions_cons_of_error hr] at h
        cases h
      | ok names =>
        rw [firstFailure?_mentions_cons_of_ok hr] at h
        have hproviders : (resourceRow capability files r).verdict.providers = names.length := by
          rw [resourceRow, hr]
          rfl
        rw [List.map_cons, List.map_cons, List.sum_cons, ih h, hproviders,
          mentions_cons_of_ok hr, List.filterMap_append, List.length_append, List.filterMap_map]
        simp [Function.comp_def]
  cases rs with
  | nil => rfl
  | cons r rest => exact hmap

end Rows

/-! ### The list beside the rows -/

/-- The report of a check and the answer of a list **agree** on a capability, given what is located
for it. -/
structure Agree (capability : CapabilityId) (files : FileTree)
    (located : Except ScopeError (List Resource)) (report : CheckReport)
    (listed : Except DiscoveryError (List Candidate)) : Prop where
  /-- Each resource has its row, in order; without a resource there is one row. -/
  rows_eq : report.rows = locatedRows capability files located
  /-- The failures that are counted are what could not be located, read or parsed. -/
  failures_eq : report.failures =
    match located with
    | .error _ => 1
    | .ok rs => rs.countP fun r => !(r.namesIn capability files).isOk
  /-- They are as many as the rows that fail. -/
  failures_eq_failingRows : report.failures = failingRows report.rows
  /-- There are no failures if and only if the list succeeds. -/
  failures_eq_zero_iff : report.failures = 0 ↔ ∃ found, listed = .ok found
  /-- If a resource makes the list fail, the first row that fails reports its error. -/
  status_of_error : ∀ rs e, located = .ok rs → listed = .error e →
    (report.rows.find? (·.verdict.isFailure)).map (·.verdict.status) = some e.message
  /-- The rows count at least the candidates of the list. -/
  length_le : ∀ found, listed = .ok found →
    found.length ≤ (report.rows.map (·.verdict.providers)).sum
  /-- They count no more if and only if no name is listed twice. -/
  length_eq_iff : ∀ rs found, located = .ok rs → listed = .ok found →
    (found.length = (report.rows.map (·.verdict.providers)).sum ↔
      ((mentions capability files rs).filterMap Mention.name?).Nodup)
  /-- The resource of a candidate has a row. -/
  resource_mem : ∀ found, listed = .ok found → ∀ candidate ∈ found,
    ∃ row ∈ report.rows, row.resource = some candidate.resource

/-- The report of a capability, given what is located for it. -/
def locatedReport (capability : CapabilityId) (files : FileTree)
    (located : Except ScopeError (List Resource)) : CheckReport :=
  .ofRows (locatedRows capability files located)

/-- Nothing located is one failure of both. -/
theorem agree_of_unlocated (capability : CapabilityId) (files : FileTree) (cause : ScopeError) :
    Agree capability files (.error cause) (locatedReport capability files (.error cause))
      (.error ⟨capability, .scope cause⟩) where
  rows_eq := rfl
  failures_eq := rfl
  failures_eq_failingRows := rfl
  failures_eq_zero_iff := ⟨fun h => (by cases h), fun ⟨_, h⟩ => (by cases h)⟩
  status_of_error := fun _ _ h => by cases h
  length_le := fun _ h => by cases h
  length_eq_iff := fun _ _ h => by cases h
  resource_mem := fun _ h => by cases h

/-- What is located is seen alike. -/
theorem agree_of_located (capability : CapabilityId) (files : FileTree) (rs : List Resource) :
    Agree capability files (.ok rs) (locatedReport capability files (.ok rs))
      (gathered (firstMentions (fun _ => false) (mentions capability files rs))) := by
  have hfind := find?_isFailure_locatedRows capability files rs
  have hfirst := firstFailure?_firstMentions (fun _ => false) (mentions capability files rs)
  have hsub := firstMentions_sublist (fun _ => false) (mentions capability files rs)
  have hnone : ∀ found, gathered (firstMentions (fun _ => false)
      (mentions capability files rs)) = .ok found →
      firstFailure? (mentions capability files rs) = none := fun found h => by
    rw [← hfirst]
    exact exists_gathered_eq_ok_iff.mp ⟨found, h⟩
  refine
    { rows_eq := rfl
      failures_eq := failingRows_locatedRows ..
      failures_eq_failingRows := rfl
      failures_eq_zero_iff := ?_
      status_of_error := fun rs' e hrs he => ?_
      length_le := fun found h => ?_
      length_eq_iff := fun rs' found hrs h => ?_
      resource_mem := fun found h candidate hcandidate => ?_ }
  · rw [exists_gathered_eq_ok_iff, hfirst, locatedReport, CheckReport.ofRows, failingRows,
      List.countP_eq_zero, ← List.find?_eq_none, ← Option.map_eq_none_iff (f := (·.verdict)),
      hfind, Option.map_eq_none_iff]
  · have hstatus := congrArg (Option.map Verdict.status) hfind
    rw [← hfirst, gathered_eq_error_iff.mp he, Option.map_map] at hstatus
    exact hstatus
  · rw [length_of_gathered h, locatedReport, CheckReport.ofRows,
      sum_providers_locatedRows capability files rs (hnone found h)]
    exact (hsub.filterMap Mention.name?).length_le
  · obtain rfl := Except.ok.inj hrs
    rw [length_of_gathered h, locatedReport, CheckReport.ofRows,
      sum_providers_locatedRows capability files rs (hnone found h)]
    exact length_filterMap_name?_firstMentions_eq_iff
  · have hmem : .ok candidate ∈ mentions capability files rs := by
      refine hsub.subset ?_
      rw [gathered_eq_ok_iff.mp h]
      exact List.mem_map_of_mem hcandidate
    obtain ⟨r, hr, hid⟩ := exists_mem_of_mem_mentions hmem
    exact ⟨_, resourceRow_mem_locatedRows capability files hr, congrArg some hid⟩

/-- The failing rows of several capabilities are those of all of them. -/
theorem failingRows_flatMap {α : Type} (f : α → List CheckRow) (l : List α) :
    failingRows (l.flatMap f) = (l.map fun a => failingRows (f a)).sum :=
  List.countP_flatMap

/-- **Checks and lists agree.** In a scope that answers the same on every call, each capability has
its report, whatever has been done before. It agrees with the list of the capability, and a check
of several capabilities reports the rows of all, one capability after the other, and counts the
failures of all. -/
theorem check_agrees_with_providers {scope : Scope} {files : FileTree}
    (hscope : scope.IsSteady files) :
    ∃ report : String → CheckReport,
      (∀ capability, AlwaysAnswers files (check scope [capability]) (.ok (report capability))) ∧
      (∀ capability, ∃ located listed,
        AlwaysAnswers files (scope.locate ⟨capability⟩).run located ∧
        AlwaysAnswers files (providers scope ⟨capability⟩) listed ∧
        Agree ⟨capability⟩ files located (report capability) listed) ∧
      ∀ given, given ≠ [] → AlwaysAnswers files (check scope given)
        (.ok ⟨given.flatMap fun capability => (report capability).rows,
          (given.map fun capability => (report capability).failures).sum⟩) := by
  choose located hlocated using hscope.locate
  have hcheck : ∀ given, given ≠ [] → AlwaysAnswers files (check scope given)
      (.ok ⟨given.flatMap fun name => locatedRows ⟨name⟩ files (located ⟨name⟩),
        (given.map fun name => failingRows (locatedRows ⟨name⟩ files (located ⟨name⟩))).sum⟩) := by
    intro given hgiven
    rw [← failingRows_flatMap]
    exact alwaysAnswers_check (if_neg hgiven) fun name _ => hlocated ⟨name⟩
  refine ⟨fun capability => locatedReport ⟨capability⟩ files (located ⟨capability⟩),
    fun capability => ?_, fun capability => ?_, hcheck⟩
  · have h := hcheck [capability] (List.cons_ne_nil capability [])
    rwa [List.flatMap_singleton, List.map_singleton, List.sum_singleton] at h
  · have hlocate := hlocated ⟨capability⟩
    dsimp only
    generalize located ⟨capability⟩ = answer at hlocate ⊢
    cases answer with
    | error cause =>
      exact ⟨_, _, hlocate, alwaysAnswers_providers_of_error hlocate,
        agree_of_unlocated ⟨capability⟩ files cause⟩
    | ok rs =>
      exact ⟨_, _, hlocate, alwaysAnswers_providers hlocate,
        agree_of_located ⟨capability⟩ files rs⟩

/-- The malformed resource is a failure of the check, so the list does not succeed. -/
theorem check_threeResources :
    let scope : Scope := .party ⟨⟨0⟩, "three", fun _ _ => .ok threeResources⟩
    let rows : List CheckRow :=
      [⟨⟨"x.Codec"⟩, some ⟨"1"⟩, .valid 1⟩,
        ⟨⟨"x.Codec"⟩, some ⟨"2"⟩, .invalid ⟨⟨"x.Codec"⟩, .malformed ⟨"2"⟩ 2 .illegalSyntax⟩⟩,
        ⟨⟨"x.Codec"⟩, some ⟨"3"⟩, .valid 2⟩]
    scope.IsSteady ∅ ∧ ((check scope ["x.Codec"]).run (.fresh ∅ ∅)).1 = .ok ⟨rows, 1⟩ ∧
      ¬∃ found, ((providers scope ⟨"x.Codec"⟩).run (.fresh ∅ ∅)).1 = .ok found := by
  intro scope rows
  have hscope : scope.IsSteady ∅ := fun name => ⟨.ok threeResources, fun w hw => rfl⟩
  have hrows : ((check scope ["x.Codec"]).run (.fresh ∅ ∅)).1 = .ok ⟨rows, 1⟩ := rfl
  obtain ⟨report, hreport, hagree, -⟩ := check_agrees_with_providers hscope
  obtain ⟨located, listed, -, hlisted, h⟩ := hagree "x.Codec"
  have hsame : ⟨rows, 1⟩ = report "x.Codec" := Except.ok.inj (hrows.symm.trans (hreport _ _ rfl).1)
  refine ⟨hscope, hrows, fun hfound => ?_⟩
  rw [(hlisted (.fresh ∅ ∅) rfl).1, ← h.failures_eq_zero_iff, ← hsame] at hfound
  cases hfound

end ProviderDiscovery.Report
