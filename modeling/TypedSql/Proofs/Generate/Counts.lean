import TypedSql.Generate

namespace TypedSql

/-! # The counts of a report

A report counts its own diagnostics by severity, and beside them the files of the run and the
declarations that were written. What a run adds to the counts is told by the list of what happened
to its files.
-/

namespace Report

/-- The number of diagnostics of a severity. -/
def countOf (severity : Severity) (ds : List Diagnostic) : Nat :=
  ds.countP fun d => d.severity = severity

/-- Diagnostics are counted by severity and leave the counts of files alone. -/
theorem summary_addAll (r : Report) (ds : List Diagnostic) :
    (r.addAll ds).summary =
      ⟨r.summary.errors + countOf .error ds, r.summary.warnings + countOf .warn ds,
        r.summary.info + countOf .info ds, r.summary.filesAnalyzed,
        r.summary.declarationsWritten⟩ := by
  induction ds generalizing r with
  | nil => rfl
  | cons d ds ih =>
      change ((r.add d).addAll ds).summary = _
      rw [ih]
      cases hseverity : d.severity <;>
        simp [add, countOf, hseverity, Nat.add_assoc, Nat.add_comm 1]

theorem diagnostics_addAll (r : Report) (ds : List Diagnostic) :
    (r.addAll ds).diagnostics = r.diagnostics ++ ds := by
  induction ds generalizing r with
  | nil => rw [List.append_nil]; rfl
  | cons d ds ih =>
      change ((r.add d).addAll ds).diagnostics = _
      rw [ih, diagnostics_add, List.append_assoc, List.singleton_append]

end Report

namespace Generate

variable (r : Report) (time : String) (os : List Outcome)

theorem diagnostics_foldl_addOutcome :
    (os.foldl addOutcome r).diagnostics = r.diagnostics ++ os.flatMap Outcome.diagnostics := by
  induction os generalizing r with
  | nil => simp
  | cons o os ih =>
      rw [List.foldl_cons, ih, addOutcome, Report.diagnostics_recordFile, Report.diagnostics_addAll,
        List.flatMap_cons, List.append_assoc]

theorem summary_foldl_addOutcome :
    (os.foldl addOutcome r).summary =
      ⟨r.summary.errors + Report.countOf .error (os.flatMap Outcome.diagnostics),
        r.summary.warnings + Report.countOf .warn (os.flatMap Outcome.diagnostics),
        r.summary.info + Report.countOf .info (os.flatMap Outcome.diagnostics),
        r.summary.filesAnalyzed + os.length,
        r.summary.declarationsWritten + os.countP Outcome.isWritten⟩ := by
  induction os generalizing r with
  | nil => rfl
  | cons o os ih =>
      rw [List.foldl_cons, ih, addOutcome, Report.recordFile, Report.summary_addAll]
      simp only [List.flatMap_cons, Report.countOf, List.countP_append, List.length_cons,
        List.countP_cons, Nat.add_assoc, Summary.mk.injEq, true_and]
      constructor
      · omega
      · cases o.isWritten <;> simp [Nat.add_comm]

theorem diagnostics_report : (report time os).diagnostics = os.flatMap Outcome.diagnostics := by
  rw [report, diagnostics_foldl_addOutcome]
  rfl

theorem summary_report :
    (report time os).summary =
      ⟨Report.countOf .error (os.flatMap Outcome.diagnostics),
        Report.countOf .warn (os.flatMap Outcome.diagnostics),
        Report.countOf .info (os.flatMap Outcome.diagnostics), os.length,
        os.countP Outcome.isWritten⟩ := by
  rw [report, summary_foldl_addOutcome]
  simp [Report.start]

end Generate

end TypedSql
