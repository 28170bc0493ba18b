import TypedSql.Proofs.Files.Named
import TypedSql.Proofs.Generate.Counts
import TypedSql.Proofs.Json.Records

namespace TypedSql

open Json Json.Codec

/-! # Reports that are saved

A report is put together by adding diagnostics and by recording files, and may be saved at any time.
Its counts repeat what its diagnostics tell, so they have to be kept in step with them. Every step
does that, and what a save writes is the text of a report that tells what was done so far.
-/

/-! ## Texts of reports -/

namespace Report

/-- The counts of a report and the places in it are numbers of sixty-four bits, and its version is
one of thirty-two. -/
structure Sized (r : Report) : Prop where
  version : r.version < Nat.pow 2 32
  errors : r.summary.errors < Nat.pow 2 64
  warnings : r.summary.warnings < Nat.pow 2 64
  info : r.summary.info < Nat.pow 2 64
  filesAnalyzed : r.summary.filesAnalyzed < Nat.pow 2 64
  declarationsWritten : r.summary.declarationsWritten < Nat.pow 2 64
  diagnostics : ∀ d ∈ r.diagnostics, d.Sized

variable {r : Report}

/-- The summary of a report is read back. -/
theorem restores_summary (h : r.Sized) : Summary.codec.Restores r.summary := by
  refine (restores_record "ReportSummary" (by decide) ?_).map rfl
  exact ⟨restores_required "errors" (restores_sizeCodec h.errors),
    restores_required "warnings" (restores_sizeCodec h.warnings),
    restores_required "info" (restores_sizeCodec h.info),
    restores_required "files_analyzed" (restores_sizeCodec h.filesAnalyzed),
    restores_required "declarations_written" (restores_sizeCodec h.declarationsWritten), trivial⟩

/-- A report is read back when its counts are sizes. -/
theorem restores (h : r.Sized) : Report.codec.Restores r := by
  have hversion : wordCodec.Restores r.version :=
    restores_count (Nat.le_sub_one_of_lt h.version) (by decide)
  refine (restores_record "Report" (by decide) ?_).map rfl
  exact ⟨restores_required "version" hversion,
    restores_required "generated_at" (restores_text r.generatedAt),
    restores_required "summary" (restores_summary h),
    restores_required "diagnostics"
      (Restores.list fun d hd => Diagnostic.restores (h.diagnostics d hd)), trivial⟩

/-- A report is read back from its text. -/
theorem ofText_text (h : r.Sized) : Report.codec.ofText r.text = .ok r :=
  (restores h).ofText .indented

/-! ## Operations -/

/-- What is done with a report. -/
inductive Operation
  | add (d : Diagnostic)
  | record (written : Bool)
  | save (p : Path)
  deriving DecidableEq, Repr

/-- The diagnostic that an operation adds. -/
def Operation.added? : Operation → Option Diagnostic
  | add d => some d
  | _ => none

/-- Whether the file that an operation records has a declaration. -/
def Operation.recorded? : Operation → Option Bool
  | record written => some written
  | _ => none

/-- Whether an operation saves the report. -/
def Operation.isSave : Operation → Bool
  | save _ => true
  | _ => false

/-- The diagnostics that operations add. -/
def added (ops : List Operation) : List Diagnostic := ops.filterMap Operation.added?

/-- The files that operations record, as whether they have a declaration. -/
def recorded (ops : List Operation) : List Bool := ops.filterMap Operation.recorded?

/-- Findings that are added come in the order of the operations. -/
@[simp]
theorem added_concat (ops : List Operation) (op : Operation) :
    added (ops ++ [op]) = added ops ++ op.added?.toList := by
  cases op <;> simp [added, Operation.added?]

/-- Files that are recorded come in the order of the operations. -/
@[simp]
theorem recorded_concat (ops : List Operation) (op : Operation) :
    recorded (ops ++ [op]) = recorded ops ++ op.recorded?.toList := by
  cases op <;> simp [recorded, Operation.recorded?]

/-- A report with the files around it. -/
structure Held where
  report : Report
  files : FileTree

namespace Held

/-- One operation on a report. -/
def step (s : Held) : Operation → Held
  | .add d => { s with report := s.report.add d }
  | .record written => { s with report := s.report.recordFile written }
  | .save p => { s with files := (FileTree.run (s.report.save p) s.files).2 }

/-- Saving leaves the report as it is. -/
theorem step_save (s : Held) (p : Path) :
    s.step (.save p) = ⟨s.report, (FileTree.run (s.report.save p) s.files).2⟩ := rfl

/-- Operations one after another. -/
def after (s : Held) (ops : List Operation) : Held := ops.foldl step s

/-- Operations act one after another. -/
theorem after_concat (s : Held) (ops : List Operation) (op : Operation) :
    s.after (ops ++ [op]) = (s.after ops).step op := by
  simp [after]

end Held

/-! ## What a report tells -/

/-- A report tells what was done since it was started at a time: its diagnostics are those that were
added, and its counts are those of its own diagnostics and of the files that were recorded. -/
structure Tells (time : String) (ops : List Operation) (r : Report) : Prop where
  version : r.version = currentVersion
  generatedAt : r.generatedAt = time
  diagnostics : r.diagnostics = added ops
  summary : r.summary =
    ⟨countOf .error r.diagnostics, countOf .warn r.diagnostics, countOf .info r.diagnostics,
      (recorded ops).length, (recorded ops).count true⟩

namespace Tells

variable {time : String} {ops : List Operation}

/-- A report that is started tells of no operation. -/
theorem start (time : String) : Tells time [] (Report.start time) := ⟨rfl, rfl, rfl, rfl⟩

/-- Adding a finding keeps what the report tells, and adds the finding. -/
theorem add (h : Tells time ops r) (d : Diagnostic) : Tells time (ops ++ [.add d]) (r.add d) := by
  refine ⟨h.version, h.generatedAt, ?diagnostics, ?summary⟩
  case diagnostics => simp [h.diagnostics, Operation.added?]
  case summary =>
    have hsummary : (r.add d).summary = _ := summary_addAll r [d]
    rw [hsummary, h.summary, diagnostics_add]
    simp [countOf, List.countP_append, Operation.recorded?]

/-- Recording a file keeps what the report tells, and counts the file. -/
theorem record (h : Tells time ops r) (written : Bool) :
    Tells time (ops ++ [.record written]) (r.recordFile written) := by
  refine ⟨h.version, h.generatedAt, ?diagnostics, ?summary⟩
  case diagnostics => simp [h.diagnostics, Operation.added?]
  case summary =>
    rw [diagnostics_recordFile, recordFile, h.summary]
    cases written <;> simp [Operation.recorded?]

/-- Saving keeps what the report tells. -/
theorem save (h : Tells time ops r) (p : Path) : Tells time (ops ++ [.save p]) r := by
  refine ⟨h.version, h.generatedAt, ?diagnostics, ?summary⟩
  case diagnostics => simp [h.diagnostics, Operation.added?]
  case summary => simpa [Operation.recorded?] using h.summary

theorem step {s : Held} (h : Tells time ops s.report) (op : Operation) :
    Tells time (ops ++ [op]) (s.step op).report := by
  cases op with
  | add d => exact h.add d
  | record written => exact h.record written
  | save p => exact h.save p

/-- After any operations on a new report it tells them. -/
theorem after (time : String) (files : FileTree) (ops : List Operation) :
    Tells time ops ((Held.mk (Report.start time) files).after ops).report := by
  -- From the end, since the last operation is the one that the report is asked about.
  induction ops using List.reverseRecOn with
  | nil => exact start time
  | append_singleton ops op ih =>
      rw [Held.after_concat]
      exact ih.step op

/-- There is at most one declaration for each file. -/
theorem declarationsWritten_le (h : Tells time ops r) :
    r.summary.declarationsWritten ≤ r.summary.filesAnalyzed := by
  rw [h.summary]
  exact List.count_le_length

/-- A report fits its numbers as long as not too much was added and recorded. -/
theorem sized (h : Tells time ops r) (hsized : ∀ d ∈ added ops, d.Sized)
    (hadded : (added ops).length < Nat.pow 2 64) (hrecorded : (recorded ops).length < Nat.pow 2 64) :
    r.Sized := by
  have hcount : ∀ severity, countOf severity r.diagnostics < Nat.pow 2 64 := fun severity => by
    rw [h.diagnostics]
    exact Nat.lt_of_le_of_lt List.countP_le_length hadded
  have hwritten : (recorded ops).count true < Nat.pow 2 64 :=
    Nat.lt_of_le_of_lt List.count_le_length hrecorded
  have hversion : r.version < Nat.pow 2 32 := by
    rw [h.version]
    decide
  rw [← h.diagnostics] at hsized
  refine ⟨hversion, ?_, ?_, ?_, ?_, ?_, hsized⟩ <;> rw [h.summary]
  exacts [hcount .error, hcount .warn, hcount .info, hrecorded, hwritten]

end Tells

/-! ## What a save writes -/

end Report

namespace Report

namespace Held

/-- A save makes the text of the report the content of a file, or it is refused and changes no
file. -/
theorem run_save (s : Held) (p : Path) :
    (∃ t, FileTree.run (s.report.save p) s.files = (.ok (), t) ∧
      t.read p = .ok s.report.text) ∨
    ∃ e, FileTree.run (s.report.save p) s.files = (.error e, s.files) := by
  have hrun : FileTree.run (s.report.save p) s.files = _ :=
    FileTree.run_attempt (fun t => t.write p s.report.text) s.files
  cases hwrite : s.files.write p s.report.text with
  | ok t =>
      rw [hwrite] at hrun
      exact .inl ⟨t, hrun, FileTree.read_of_write hwrite⟩
  | error e =>
      rw [hwrite] at hrun
      exact .inr ⟨e, hrun⟩

/-- What comes to a report does not depend on the files. -/
theorem report_step_eq {s s' : Held} (h : s.report = s'.report) (op : Operation) :
    (s.step op).report = (s'.step op).report := by
  cases op with
  | add d => exact congrArg (·.add d) h
  | record written => exact congrArg (·.recordFile written) h
  | save p => exact h

/-- Without the saves the same report comes about. -/
theorem report_after_filter (s : Held) (ops : List Operation) :
    (s.after (ops.filter fun op => !op.isSave)).report = (s.after ops).report := by
  induction ops using List.reverseRecOn with
  | nil => rfl
  | append_singleton ops op ih =>
      rw [List.filter_append, after_concat]
      cases op with
      | save p =>
          show (s.after (_ ++ [])).report = (s.after ops).report
          rw [List.append_nil]
          exact ih
      | add d => exact (congrArg _ (after_concat s _ _)).trans (report_step_eq ih _)
      | record written => exact (congrArg _ (after_concat s _ _)).trans (report_step_eq ih _)

end Held

/-- A report may be saved at any time while it is put together. At every save it tells what was
done so far, no more declarations are written than files are looked at, and the text that is written
is read back as the report. The save makes this text the content of the file, or it is refused and
changes no file, and either way the report stays as it is: the saves may as well be left out.

Lines, columns and counts are numbers of sixty-four bits, which neither the diagnostics that are
added nor the files that are recorded may exceed. -/
theorem saved_reports_read_back (time : String) (files : FileTree) (ops : List Operation)
    (hsized : ∀ d ∈ added ops, d.Sized) (hadded : (added ops).length < Nat.pow 2 64)
    (hrecorded : (recorded ops).length < Nat.pow 2 64) :
    let new : Held := ⟨start time, files⟩
    (∀ before p later, ops = before ++ .save p :: later →
      let s := new.after before
      Tells time before s.report ∧
        s.report.summary.declarationsWritten ≤ s.report.summary.filesAnalyzed ∧
        Report.codec.ofText s.report.text = .ok s.report ∧
        (new.after (before ++ [.save p])).report = s.report ∧
        ((∃ t, FileTree.run (s.report.save p) s.files = (.ok (), t) ∧
            t.read p = .ok s.report.text) ∨
          ∃ e, FileTree.run (s.report.save p) s.files = (.error e, s.files))) ∧
      (new.after (ops.filter fun op => !op.isSave)).report = (new.after ops).report := by
  intro new
  refine ⟨fun before p later hsplit => ?_, new.report_after_filter ops⟩
  intro s
  have htells : Tells time before s.report := Tells.after time files before
  -- What was added and recorded before the save is a part of it all.
  have haddedBefore : added before <+: added ops := by
    rw [hsplit, added, added, List.filterMap_append]
    exact List.prefix_append _ _
  have hrecordedBefore : recorded before <+: recorded ops := by
    rw [hsplit, recorded, recorded, List.filterMap_append]
    exact List.prefix_append _ _
  have hfits : s.report.Sized :=
    htells.sized (fun d hd => hsized d (haddedBefore.subset hd))
      (Nat.lt_of_le_of_lt haddedBefore.length_le hadded)
      (Nat.lt_of_le_of_lt hrecordedBefore.length_le hrecorded)
  refine ⟨htells, htells.declarationsWritten_le, ofText_text hfits, ?_, s.run_save p⟩
  rw [Held.after_concat, Held.step_save]

/-- A report with an error, a warning with a place and two files is saved. -/
theorem saved_reports_read_back_once :
    let p : Path := ⟨"report.json"⟩
    let failure : Diagnostic :=
      ⟨.sqlUnknownRelation, .error, "Unknown relation \"products\"", none⟩
    let warning : Diagnostic :=
      ⟨.sqlUnknownColumn, .warn, "Unknown column", some ⟨"db/products.sql", some 4, none⟩⟩
    let before : List Operation :=
      [.add failure, .record false, .add warning, .record true]
    let ops := before ++ [Operation.save p]
    let s := (⟨start "2025-01-01T00:00:00Z", .empty⟩ : Held).after before
    ((∀ d ∈ added ops, d.Sized) ∧ (added ops).length < Nat.pow 2 64 ∧
        (recorded ops).length < Nat.pow 2 64) ∧
      s.report.summary = ⟨1, 1, 0, 2, 1⟩ ∧
      Report.codec.ofText s.report.text = .ok s.report ∧
      (s.step (.save p)).files.read p = .ok s.report.text := by
  intro p failure warning before ops s
  have hsized : ∀ d ∈ added ops, d.Sized := by
    unfold Diagnostic.Sized Location.Sized
    decide
  have hadded : (added ops).length < Nat.pow 2 64 := by decide
  have hrecorded : (recorded ops).length < Nat.pow 2 64 := by decide
  obtain ⟨-, -, hread, -, hsave⟩ :=
    (saved_reports_read_back "2025-01-01T00:00:00Z" .empty ops hsized hadded hrecorded).1
      before p [] rfl
  have hdone (text : String) :
      (FileTree.run (FileAccess.write ⟨"report.json"⟩ text) .empty).1 = .ok () := by rfl
  refine ⟨⟨hsized, hadded, hrecorded⟩, rfl, hread, ?_⟩
  obtain ⟨t, hrun, hfile⟩ | ⟨e, hrun⟩ := hsave
  · rw [Held.step_save, hrun]
    exact hfile
  · have hrefused := congrArg Prod.fst hrun
    exact nomatch (hdone s.report.text).symm.trans hrefused

end Report

end TypedSql
