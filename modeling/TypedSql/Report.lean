import TypedSql.Diagnostic

/-!
# Reports

What one run over a set of files found: every diagnostic in order, with counts by severity and of
the files.
-/

namespace TypedSql

/-- The counts of a run: diagnostics by severity, the files that were looked at, and those for which
a declaration was written. -/
structure Summary where
  errors : Nat
  warnings : Nat
  info : Nat
  filesAnalyzed : Nat
  declarationsWritten : Nat
  deriving DecidableEq, Repr, Inhabited

/-- The findings of a run. `version` numbers the form in which reports are kept. -/
structure Report where
  version : Nat
  generatedAt : String
  summary : Summary
  diagnostics : List Diagnostic
  deriving DecidableEq, Repr, Inhabited

namespace Report

/-- The form in which reports are written. -/
def currentVersion : Nat := 1

/-- The report of a run that starts at a time. -/
def start (time : String) : Report := ⟨currentVersion, time, ⟨0, 0, 0, 0, 0⟩, []⟩

/-- Adds a diagnostic and counts it. -/
def add (r : Report) (d : Diagnostic) : Report :=
  let s := r.summary
  { r with
    summary := match d.severity with
      | .error => { s with errors := s.errors + 1 }
      | .warn => { s with warnings := s.warnings + 1 }
      | .info => { s with info := s.info + 1 }
    diagnostics := r.diagnostics ++ [d] }

/-- Counts a file, and its declaration if one was written. -/
def recordFile (r : Report) (written : Bool) : Report :=
  let s := r.summary
  { r with
    summary :=
      { s with
        filesAnalyzed := s.filesAnalyzed + 1
        declarationsWritten := s.declarationsWritten + (if written then 1 else 0) } }

/-- Adds diagnostics one after another. -/
def addAll (r : Report) (ds : List Diagnostic) : Report := ds.foldl add r

@[simp]
theorem diagnostics_add (r : Report) (d : Diagnostic) :
    (r.add d).diagnostics = r.diagnostics ++ [d] := rfl

@[simp]
theorem diagnostics_recordFile (r : Report) (written : Bool) :
    (r.recordFile written).diagnostics = r.diagnostics := rfl

end Report

end TypedSql
