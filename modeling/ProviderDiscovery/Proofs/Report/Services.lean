import ProviderDiscovery.CommandLine.Execute
import ProviderDiscovery.Proofs.Report.Check
import ProviderDiscovery.Proofs.Scope.Confined

/-!
# Services are what can be located, and what is checked

`Settings.services_iff_locate` is about the class path of any settings: the capabilities that are
listed as its services are those for which a file can be located. The command that lists services
prints them, and a check that is given no capabilities has a row for each of their files and for no
other file, so neither misses a file of a valid capability or shows one that is not there.
-/

namespace ProviderDiscovery

open CommandLine (runServices runCheck servicesListing checkResult)

/-! ### Rows of a capability -/

namespace Report

/-- Of lists that are made for the members of a list without repetitions, one is found again by the
member that it was made for. -/
theorem filter_flatMap_of_nodup {α β : Type} [DecidableEq α] {key : β → α} {f : α → List β}
    (hkey : ∀ a, ∀ b ∈ f a, key b = a) {l : List α} (h : l.Nodup) (a : α) :
    (l.flatMap f).filter (key · = a) = if a ∈ l then f a else [] := by
  induction l with
  | nil => rfl
  | cons x rest ih =>
    obtain ⟨hx, hrest⟩ := List.nodup_cons.mp h
    rw [List.flatMap_cons, List.filter_append, ih hrest]
    by_cases hax : a = x
    · subst hax
      have hall : (f a).filter (key · = a) = f a :=
        List.filter_eq_self.mpr fun b hb => decide_eq_true (hkey a b hb)
      rw [hall, if_neg hx, if_pos List.mem_cons_self, List.append_nil]
    · have hnone : (f x).filter (key · = a) = [] :=
        List.filter_eq_nil_iff.mpr fun b hb heq =>
          hax ((of_decide_eq_true heq).symm.trans (hkey x b hb))
      rw [hnone, List.nil_append]
      simp only [List.mem_cons, hax, false_or]

/-- The rows of a capability are about it. -/
theorem capability_of_mem_locatedRows {capability : CapabilityId} {files : FileTree}
    {located : Except ScopeError (List Resource)} {row : CheckRow}
    (h : row ∈ locatedRows capability files located) : row.capability = capability := by
  match located with
  | .error cause => rw [List.mem_singleton.mp h]
  | .ok [] => rw [List.mem_singleton.mp h]
  | .ok (r :: rest) =>
    obtain ⟨r', -, rfl⟩ := List.mem_map.mp h
    rfl

/-- A row with a file is about a capability that was located. -/
theorem exists_of_mem_locatedRows {capability : CapabilityId} {files : FileTree}
    {located : Except ScopeError (List Resource)} {row : CheckRow}
    (h : row ∈ locatedRows capability files located) (hrow : row.resource ≠ none) :
    ∃ rs, located = .ok rs := by
  match located with
  | .error cause => exact absurd (by rw [List.mem_singleton.mp h]) hrow
  | .ok rs => exact ⟨rs, rfl⟩

/-- If there are files, the rows of a capability show them in order. -/
theorem map_resource_locatedRows (capability : CapabilityId) (files : FileTree)
    {rs : List Resource} (h : rs ≠ []) :
    (locatedRows capability files (.ok rs)).map (·.resource) = rs.map (some ·.id) := by
  cases rs with
  | nil => exact absurd rfl h
  | cons r rest => exact List.map_map

/-- A report **covers** what can be located: the files of each qualified name have their rows, in
order, and no other row shows a file. -/
structure Covers (located : String → Except ScopeError (List Resource)) (report : CheckReport) :
    Prop where
  rows_of : ∀ id rs, isQualifiedName id → located id = .ok rs →
    (report.rows.filter (·.capability.text = id)).map (·.resource) = rs.map (some ·.id)
  isQualifiedName_of : ∀ row ∈ report.rows, row.resource ≠ none →
    isQualifiedName row.capability.text

end Report

/-- Folders and archives answer the same on every call. -/
theorem Scope.OnFiles.isSteady {s : Scope} (hs : s.OnFiles) (files : FileTree) :
    s.IsSteady files :=
  fun name => ⟨_, fun w hw => (hs.alwaysAnswers files name w hw).1⟩

namespace Settings

/-- A check that is given no capabilities covers what can be located, when each qualified name is
among the services if and only if it has files. -/
theorem exists_covers {scope : Scope} (hscope : scope.OnFiles) {w : World} {names : List String}
    (hnames : scope.serviceNames w.files = .ok names) (hnodup : names.Nodup)
    (hmem : ∀ id, isQualifiedName id →
      ∃ rs, ((scope.locate ⟨id⟩).run.run w).1 = .ok rs ∧ (id ∈ names ↔ rs ≠ [])) :
    ∃ report, ((Report.check scope []).run w).1 = .ok report ∧
      Report.Covers (fun id => ((scope.locate ⟨id⟩).run.run w).1) report := by
  choose located hlocated using (hscope.isSteady w.files).locate
  have heq : ∀ id, ((scope.locate ⟨id⟩).run.run w).1 = located ⟨id⟩ := fun id =>
    (hlocated ⟨id⟩ w rfl).1
  have hchosen : Report.chosenCapabilities w.files scope [] = .ok names := hnames
  have hcheck := Report.alwaysAnswers_check hchosen fun name _ => hlocated ⟨name⟩
  refine ⟨_, (hcheck w rfl).1, ⟨fun id rs hid hrs => ?_, fun row hrow hresource => ?_⟩⟩
  · obtain ⟨rs', hrs', hiff⟩ := hmem id hid
    obtain rfl : rs = rs' := Except.ok.inj (hrs.symm.trans hrs')
    have hkey : ∀ name, ∀ row ∈ Report.locatedRows ⟨name⟩ w.files (located ⟨name⟩),
        row.capability.text = name := fun name row hrow => by
      rw [Report.capability_of_mem_locatedRows hrow]
    show (List.filter _ (List.flatMap _ names)).map _ = _
    rw [Report.filter_flatMap_of_nodup hkey hnodup]
    split
    · rename_i hin
      rw [← heq, hrs]
      exact Report.map_resource_locatedRows ⟨id⟩ w.files (hiff.mp hin)
    · rename_i hout
      have hnil : rs = [] := by
        by_contra hne
        exact hout (hiff.mpr hne)
      rw [hnil]
      rfl
  · obtain ⟨name, -, hmem⟩ := List.mem_flatMap.mp hrow
    rw [Report.capability_of_mem_locatedRows hmem]
    obtain ⟨rs, hrs⟩ := Report.exists_of_mem_locatedRows hmem hresource
    -- Only a qualified name is located at all.
    by_contra hname
    rw [← heq, Scope.run_locate_of_not_isQualifiedName (by simpa using hname)] at hrs
    cases hrs

/-- The command that lists services prints those that are listed. -/
theorem run_runServices_of_listed {scope : Scope} {w : World} {names : List String}
    (h : scope.serviceNames w.files = .ok names) (json : Bool) :
    ((runServices scope json).run w).1 = .line (servicesListing scope.name names json) := by
  rw [runServices, Action.run_get_bind, h]
  rfl

/-- It fails if services cannot be listed. -/
theorem run_runServices_of_unlisted {scope : Scope} {w : World} {cause : ScopeError}
    (h : scope.serviceNames w.files = .error cause) (json : Bool) :
    ((runServices scope json).run w).1 = .failed cause.message := by
  rw [runServices, Action.run_get_bind, h]
  rfl

/-- A check that is given no capabilities fails if services cannot be listed. -/
theorem run_runCheck_of_unlisted {scope : Scope} {w : World} {cause : ScopeError}
    (h : scope.serviceNames w.files = .error cause) :
    ((runCheck scope []).run w).1 = .failed cause.message := by
  have hchosen : Report.chosenCapabilities w.files scope [] = .error cause := h
  have hcheck : (Report.check scope []).run w = (.error cause, w) := by
    rw [Report.check, Action.run_get_bind, hchosen]
    rfl
  rw [runCheck, Action.run_bind, hcheck]
  rfl

/-- **The services of a class path are what can be located in it.** Whatever the settings are and
whatever the files hold: services that can be listed ascend, and each qualified name is among them
if and only if locating it gives a file. And they cannot be listed if and only if no qualified name
can be located, or, which is the same, if some qualified name cannot be; the error is the same. The
command that lists services, and a check that is given no capabilities, fail with this error or
show just these services and their files. -/
theorem services_iff_locate (s : Settings) (built : FileTree) (w : World) :
    let scope := s.build built
    let listed := scope.serviceNames w.files
    let located := fun id => ((scope.locate ⟨id⟩).run.run w).1
    let services := fun json => ((runServices scope json).run w).1
    let checked := ((runCheck scope []).run w).1
    (∀ names, listed = .ok names → names.Pairwise (· < ·) ∧ ∀ id, isQualifiedName id →
      ∃ rs, located id = .ok rs ∧ (id ∈ names ↔ rs ≠ [])) ∧
    (∀ cause,
      (listed = .error cause ↔ ∀ id, isQualifiedName id → located id = .error cause) ∧
      (listed = .error cause ↔ ∃ id, isQualifiedName id ∧ located id = .error cause)) ∧
    (∀ names, listed = .ok names →
      (∀ json, services json = .line (servicesListing scope.name names json)) ∧
      ∃ report, checked = checkResult report ∧ Report.Covers located report) ∧
    ∀ cause, listed = .error cause →
      (∀ json, services json = .failed cause.message) ∧ checked = .failed cause.message := by
  intro scope listed located services checked
  have hfiles : scope.OnFiles := s.onFiles_build built
  have hmatches : ∀ id, isQualifiedName id → Scope.Matches id listed (located id) := by
    intro id hid
    obtain ⟨answer, hanswer, hmatch⟩ := hfiles.accord w.files id hid
    have hlocated : located id = answer :=
      (Scope.alwaysAnswers_locate (c := ⟨id⟩) hid hanswer w rfl).1
    rwa [hlocated]
  have hlisted : ∀ names, listed = .ok names → names.Pairwise (· < ·) ∧
      ∀ id, isQualifiedName id → ∃ rs, located id = .ok rs ∧ (id ∈ names ↔ rs ≠ []) := by
    intro names hnames
    refine ⟨Scope.pairwise_of_serviceNames_classPath hnames, fun id hid => ?_⟩
    have h := hmatches id hid
    rw [hnames] at h
    exact h.exists_eq_ok
  have hall : ∀ cause, listed = .error cause → ∀ id, isQualifiedName id →
      located id = .error cause := fun cause hlisted id hid => by
    have h := hmatches id hid
    rw [hlisted] at h
    exact h.eq_error
  have hsome : ∀ cause, (∃ id, isQualifiedName id ∧ located id = .error cause) →
      listed = .error cause := by
    rintro cause ⟨id, hid, hlocated⟩
    have h := hmatches id hid
    rw [hlocated] at h
    exact h.eq_error_of_located
  have hname : isQualifiedName "a" := by decide +kernel
  refine ⟨hlisted, fun cause => ⟨⟨hall cause, fun h => hsome cause ⟨"a", hname, h "a" hname⟩⟩,
      fun h => ⟨"a", hname, hall cause h "a" hname⟩, hsome cause⟩, fun names hnames => ?_,
    fun cause hcause => ?_⟩
  · obtain ⟨hsorted, hmem⟩ := hlisted names hnames
    obtain ⟨report, hreport, hcovers⟩ :=
      exists_covers hfiles hnames (hsorted.imp String.ne_of_lt) hmem
    have hchecked : checked = checkResult report := by
      show ((runCheck scope []).run w).1 = _
      rw [runCheck, Action.run_bind, hreport]
      rfl
    exact ⟨run_runServices_of_listed hnames, report, hchecked, hcovers⟩
  · exact ⟨run_runServices_of_unlisted hcause, run_runCheck_of_unlisted hcause⟩

/-- There is a file for `x.Codec`, and none for `y`; a check has rows for the one only. -/
theorem services_oneFolder :
    let scope := build ⟨[⟨"/srv"⟩], none⟩ oneFolder
    let located := fun id => ((scope.locate ⟨id⟩).run.run (.fresh oneFolder ∅)).1
    scope.serviceNames oneFolder = .ok ["x.Codec"] ∧
      (∃ rs, located "x.Codec" = .ok rs ∧ rs ≠ []) ∧ located "y" = .ok [] ∧
      ∃ report, ((runCheck scope []).run (.fresh oneFolder ∅)).1 = checkResult report ∧
        report.rows.filter (·.capability.text = "x.Codec") ≠ [] ∧
        report.rows.filter (·.capability.text = "y") = [] := by
  intro scope located
  have hlisted : scope.serviceNames oneFolder = .ok ["x.Codec"] := by rfl
  obtain ⟨hservices, -, hcommands, -⟩ :=
    services_iff_locate ⟨[⟨"/srv"⟩], none⟩ oneFolder (.fresh oneFolder ∅)
  obtain ⟨-, hiff⟩ := hservices ["x.Codec"] hlisted
  obtain ⟨-, report, hchecked, hcovers⟩ := hcommands ["x.Codec"] hlisted
  obtain ⟨rs, hrs, hcodec⟩ := hiff "x.Codec" (by decide +kernel)
  obtain ⟨rs', hrs', hy⟩ := hiff "y" (by decide +kernel)
  have hfound : rs ≠ [] := hcodec.mp (by decide)
  have hnil : rs' = [] := by
    by_contra hne
    exact absurd (hy.mpr hne) (by decide)
  have hrows := hcovers.rows_of "x.Codec" rs (by decide +kernel) hrs
  have hnone := hcovers.rows_of "y" rs' (by decide +kernel) hrs'
  rw [hnil, List.map_nil, List.map_eq_nil_iff] at hnone
  rw [hnil] at hrs'
  refine ⟨hlisted, ⟨rs, hrs, hfound⟩, hrs', report, hchecked, fun hempty => hfound ?_, hnone⟩
  rw [hempty, List.map_nil] at hrows
  exact List.map_eq_nil_iff.mp hrows.symm

end Settings

end ProviderDiscovery
