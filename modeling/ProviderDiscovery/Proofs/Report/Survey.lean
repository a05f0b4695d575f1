import ProviderDiscovery.Proofs.Events
import ProviderDiscovery.Report.Check

/-!
# Surveys

What there is to check is found by a **survey**, which locates the files of each capability and
reads them, one capability after the other. A check goes through the same steps; its rows are those
of its survey, and the failures that it counts on the way are the rows that fail (`run_check`).
-/

namespace ProviderDiscovery.Report

/-- A configuration file, and the names that reading it gave. -/
abbrev ReadFile := Resource × Except DiscoveryError (List String)

/-- What a survey **finds** for a capability: why nothing could be located, or the files that were
located and read. -/
structure Finding where
  /-- The capability. -/
  capability : CapabilityId
  /-- What was located. -/
  located : Except ScopeError (List ReadFile)

/-- Reads a configuration file. -/
def readFile (capability : CapabilityId) (r : Resource) : Action ReadFile := do
  return (r, ← listedNames capability r)

/-- **Surveys** a capability: locates its files and reads them. -/
def survey (scope : Scope) (capability : CapabilityId) : Action Finding := do
  match ← (scope.locate capability).run with
  | .error cause => return ⟨capability, .error cause⟩
  | .ok rs => return ⟨capability, .ok (← rs.mapM (readFile capability))⟩

/-- Surveys capabilities, one after the other. -/
def surveyAll (scope : Scope) (names : List String) : Action (List Finding) :=
  names.mapM fun name => survey scope ⟨name⟩

/-! ### Rows -/

/-- The verdict on a file that lists such names. -/
def Verdict.ofNames : Except DiscoveryError (List String) → Verdict
  | .ok names => .valid names.length
  | .error e => .invalid e

/-- The row of a file. -/
def fileRow (capability : CapabilityId) (file : ReadFile) : CheckRow :=
  ⟨capability, some file.1.id, .ofNames file.2⟩

/-- The rows of what was found: one for each file, in order, or a single one if there is none. -/
def Finding.rows (f : Finding) : List CheckRow :=
  match f.located with
  | .error cause => [⟨f.capability, none, .unlocated cause⟩]
  | .ok [] => [⟨f.capability, none, .missing⟩]
  | .ok files => files.map (fileRow f.capability)

/-- The rows of all that was found. -/
def allRows (found : List Finding) : List CheckRow := found.flatMap Finding.rows

/-- The number of rows that fail. -/
def failingRows (rows : List CheckRow) : Nat := rows.countP (·.verdict.isFailure)

/-- A row fails if and only if its file does. -/
theorem isFailure_fileRow (capability : CapabilityId) (file : ReadFile) :
    (fileRow capability file).verdict.isFailure = !file.2.isOk := by
  obtain ⟨r, e | names⟩ := file <;> rfl

theorem failingRows_append (rows more : List CheckRow) :
    failingRows (rows ++ more) = failingRows rows + failingRows more :=
  List.countP_append

/-! ### Reports -/

namespace CheckReport

/-- The report of rows, of which those that fail are counted. -/
def ofRows (rows : List CheckRow) : CheckReport := ⟨rows, failingRows rows⟩

/-- A report with more rows, of which those that fail are counted. -/
def addAll (report : CheckReport) (rows : List CheckRow) : CheckReport :=
  ⟨report.rows ++ rows, report.failures + failingRows rows⟩

theorem addAll_nil (report : CheckReport) : report.addAll [] = report := by
  rw [addAll, List.append_nil]
  rfl

theorem addAll_addAll (report : CheckReport) (rows more : List CheckRow) :
    (report.addAll rows).addAll more = report.addAll (rows ++ more) := by
  rw [addAll, addAll, addAll, failingRows_append, List.append_assoc, Nat.add_assoc]

/-- A report that starts with nothing counts its own rows. -/
theorem addAll_empty (rows : List CheckRow) : empty.addAll rows = ofRows rows := by
  rw [addAll, empty, List.nil_append, Nat.zero_add, ofRows]

/-- A row that does not fail is not counted. -/
theorem push_eq_addAll (report : CheckReport) {row : CheckRow}
    (h : row.verdict.isFailure = false) : report.push row = report.addAll [row] := by
  rw [push, addAll, failingRows, List.countP_singleton, h]
  rfl

/-- A row that fails is counted. -/
theorem pushFailure_eq_addAll (report : CheckReport) {row : CheckRow}
    (h : row.verdict.isFailure = true) : report.pushFailure row = report.addAll [row] := by
  rw [pushFailure, addAll, failingRows, List.countP_singleton, h]
  rfl

end CheckReport

/-- Steps that each report rows of what they find report the rows of all that is found. -/
theorem foldlM_eq_of_reports {α β : Type} {f : CheckReport → α → Action CheckReport}
    {find : α → Action β} {rows : β → List CheckRow}
    (h : ∀ report a, f report a = (do return report.addAll (rows (← find a)))) (l : List α)
    (report : CheckReport) :
    l.foldlM f report = (do return report.addAll ((← l.mapM find).flatMap rows)) := by
  induction l generalizing report with
  | nil =>
    rw [List.foldlM_nil, List.mapM_nil, pure_bind, List.flatMap_nil, report.addAll_nil]
  | cons a rest ih =>
    rw [List.foldlM_cons, List.mapM_cons, h]
    simp only [bind_assoc, pure_bind, ih, List.flatMap_cons, CheckReport.addAll_addAll]

/-- A check of a file reports what reading it gives. -/
theorem checkResource_eq (capability : CapabilityId) (report : CheckReport) (r : Resource) :
    checkResource capability report r =
      (do return report.addAll [fileRow capability (← readFile capability r)]) := by
  rw [checkResource, readFile, bind_assoc]
  refine bind_congr fun answer => ?_
  cases answer with
  | error e => exact congrArg pure (report.pushFailure_eq_addAll rfl)
  | ok names => exact congrArg pure (report.push_eq_addAll rfl)

/-- A check of a capability reports what a survey finds. -/
theorem checkCapability_eq (scope : Scope) (report : CheckReport) (capability : CapabilityId) :
    checkCapability scope report capability =
      (do return report.addAll (← survey scope capability).rows) := by
  rw [survey, bind_assoc, checkCapability]
  refine bind_congr fun located => ?_
  match located with
  | .error cause => exact congrArg pure (report.pushFailure_eq_addAll rfl)
  | .ok [] => exact congrArg pure (report.push_eq_addAll rfl)
  | .ok (r :: rest) =>
    -- Whether there are rows of files is seen when the first file has been read.
    refine (foldlM_eq_of_reports (checkResource_eq capability) (r :: rest) report).trans ?_
    simp only [List.mapM_cons, bind_assoc, pure_bind, ← List.map_eq_flatMap]
    rfl

/-- **A check reports what a survey of all its capabilities finds**, and counts the rows that
fail. -/
theorem run_check {scope : Scope} {given names : List String} {w : World}
    (h : chosenCapabilities w.files scope given = .ok names) :
    (check scope given).run w =
      (.ok (.ofRows (allRows ((surveyAll scope names).run w).1)),
        ((surveyAll scope names).run w).2) := by
  rw [check, Action.run_get_bind, h]
  dsimp only
  rw [foldlM_eq_of_reports (fun report name => checkCapability_eq scope report ⟨name⟩)]
  simp only [CheckReport.addAll_empty]
  rfl

end ProviderDiscovery.Report
