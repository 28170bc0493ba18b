import TypedSql.Proofs.Generate.Accounts

namespace TypedSql.Program

open Generate

/-! # The account of a run

The report of a run is an account of its files: how many there were, how many declarations were
written for them and how many of them failed, with what was found about each. A run without a schema
is about no file at all.
-/

/-! ## The parts of a run -/

section

variable {m : Type → Type} [Monad m] [FileAccess m]

/-- The schema of a run, with its file. -/
def loadSchema (c : Config) (schema : Option Path) :
    Step m (Path × Except SchemaError Schema) := do
  let p ← schemaPath c schema
  return (p, ← Schema.ofFile p)

/-- Where a run looks for its files. -/
def rootsOf (c : Config) (paths : List Path) : Step m (List Path) :=
  if paths.isEmpty then pure (c.sources.map c.resolve) else absoluteAll paths

/-- The directory that the declarations of a run go to, if there is one. -/
def targetOf (c : Config) : Option Path → Step m (Option Path)
  | some dir => some <$> (FileAccess.absolute dir : Step m Path)
  | none => pure (c.outDir.map c.resolve)

/-- The directory that the declarations of a run go to, and the files that the run is about. -/
def plan (c : Config) (paths : List Path) (outDir : Option Path) :
    Step m (Option Path × List Path) := do
  let roots ← rootsOf c paths
  let dir ← targetOf c outDir
  return (dir, ← Discovery.sqlFiles roots)

/-- Lines for a reader who wants to be told everything. -/
def remark (verbose : Bool) (lines : List String) : Step m Unit :=
  if verbose then tell lines else pure ()

/-- The end of a run without a schema. The error is all that there is to report. -/
def refuse (time : String) (p : Path) (e : SchemaError) : Step m Report := do
  tell [s!"✗ {(e.diagnostic p).text}"]
  exit 1
  return (Report.start time).add (e.diagnostic p)

/-- The end of a run that took its files. -/
def conclude (time : String) (verbose : Bool) (outcomes : List Outcome) : Step m Report := do
  let r := Generate.report time outcomes
  tell (outcomes.flatMap (Outcome.lines verbose))
  print (summaryLines r.summary (failed outcomes))
  if 0 < failed outcomes then exit 1
  return r

/-- A run with its schema. -/
def tallyWith (c : Config) (time : String) (paths : List Path) (outDir : Option Path)
    (verbose : Bool) (s : Schema) : Step m Report := do
  remark verbose ["Relations: " ++ ", ".intercalate s.tableNames]
  let (dir, files) ← plan c paths outDir
  remark verbose [s!"Found {files.length} SQL file(s)"]
  let outcomes ← processFiles ⟨c.dialect, s, c.bindings, c.root, dir⟩ files
  conclude time verbose outcomes

/-- A run up to its report, which is not saved yet. -/
def tally (c : Config) (time : String) (paths : List Path) (schema outDir : Option Path)
    (verbose : Bool) : Step m Report := do
  let (p, loaded) ← loadSchema c schema
  match loaded with
  | .error e => refuse time p e
  | .ok s => tallyWith c time paths outDir verbose s

omit [FileAccess m] in
/-- What follows the end of a run takes its report. -/
theorem conclude_bind [LawfulMonad m] {α : Type} (time : String) (verbose : Bool)
    (outcomes : List Outcome) (f : Report → Step m α) :
    conclude time verbose outcomes >>= f = (do
      tell (outcomes.flatMap (Outcome.lines verbose))
      print (summaryLines (Generate.report time outcomes).summary (failed outcomes))
      if 0 < failed outcomes then exit 1
      f (Generate.report time outcomes)) := by
  unfold conclude
  by_cases hfailed : 0 < failed outcomes <;> simp [hfailed]

/-- A run comes to its report, which is then saved if that is asked for. -/
theorem generate_eq [LawfulMonad m] (c : Config) (time : String) (paths : List Path)
    (schema outDir report : Option Path) (verbose : Bool) :
    (generate c time paths schema outDir report verbose : Step m Unit) =
      tally c time paths schema outDir verbose >>= fun r => saveReport r report := by
  unfold generate tally loadSchema
  simp only [bind_assoc, pure_bind]
  refine bind_congr fun p => bind_congr fun loaded => ?_
  -- What is optional in a run is a branch of it, and in every branch the steps are the same.
  cases loaded with
  | error e => simp [refuse]
  | ok s =>
      unfold tallyWith plan rootsOf targetOf remark
      cases verbose <;> cases paths.isEmpty <;> cases outDir <;> simp [conclude_bind]

end

/-! ## Steps before the files are taken -/

section

variable {σ : Type} [FileAccess (StateM σ)]

theorem silent_loadSchema (c : Config) (schema : Option Path) :
    Silent (loadSchema c schema : WatchedStep σ _) := by
  have hpath : Silent (schemaPath c schema : WatchedStep σ _) := by
    cases schema with
    | none => exact .pure rfl
    | some p => exact silent_absolute p
  refine hpath.bind fun p => Silent.bind ?_ fun loaded => .pure rfl
  refine (silent_read p).bind fun text => ?_
  cases text <;> exact .pure rfl

theorem silent_plan (c : Config) (paths : List Path) (outDir : Option Path) :
    Silent (plan c paths outDir : WatchedStep σ _) := by
  have hroots : Silent (rootsOf c paths : WatchedStep σ _) := by
    unfold rootsOf
    split
    · exact .pure rfl
    · exact Silent.mapM silent_absolute
  have hdir : Silent (targetOf c outDir : WatchedStep σ _) := by
    cases outDir with
    | none => exact .pure rfl
    | some dir => exact (silent_absolute dir).map some
  have hfiles : ∀ roots, Silent (Discovery.sqlFiles roots : WatchedStep σ _) := fun roots =>
    (Silent.mapM silent_filesBelow).bind fun found => .pure rfl
  exact hroots.bind fun roots => hdir.bind fun dir => (hfiles roots).bind fun files => .pure rfl

end

/-! ## The report of a run -/

section

variable {σ : Type} (t : Transcript) (w : σ)

theorem exec_remark (verbose : Bool) (lines : List String) :
    ∃ errors, exec (remark verbose lines : Step (StateM σ) Unit) t w =
      ((.ok (), { t with errors := errors }), w) := by
  cases verbose with
  | false => exact ⟨t.errors, rfl⟩
  | true => exact ⟨t.errors ++ lines, rfl⟩

/-- Without a schema the reader is told of the error, by the exit code as well. -/
theorem exec_refuse (time : String) (p : Path) (e : SchemaError) :
    exec (refuse time p e : Step (StateM σ) Report) t w =
      ((.ok ((Report.start time).add (e.diagnostic p)),
        { t with errors := t.errors ++ [s!"✗ {(e.diagnostic p).text}"], exitCode := 1 }), w) := rfl

/-- After the files the reader is told of them, and of the failed ones by the exit code as well. -/
theorem exec_conclude (time : String) (verbose : Bool) (os : List Outcome) :
    exec (conclude time verbose os : Step (StateM σ) Report) t w =
      ((.ok (Generate.report time os),
        { output := t.output ++ summaryLines (Generate.report time os).summary (failed os)
          errors := t.errors ++ os.flatMap (Outcome.lines verbose)
          exitCode := if 0 < failed os then 1 else t.exitCode }), w) := by
  unfold conclude
  by_cases hfailed : 0 < failed os
  · simp only [if_pos hfailed]
    rfl
  · simp only [if_neg hfailed]
    rfl

variable {t w} [FileAccess (StateM σ)] {c : Config} {schema outDir : Option Path} {p : Path}
  {w' w'' : σ}

/-- A run whose schema does not load reports the error. -/
theorem exec_tally_of_error {e : SchemaError}
    (hload : exec (loadSchema c schema) t w = ((.ok (p, .error e), t), w')) (time : String)
    (paths : List Path) (outDir : Option Path) (verbose : Bool) :
    ∃ errors, exec (tally c time paths schema outDir verbose : Step (StateM σ) Report) t w =
      ((.ok ((Report.start time).add (e.diagnostic p)),
        { t with errors := errors, exitCode := 1 }), w') := by
  unfold tally
  rw [exec_bind_of_ok hload]
  exact ⟨_, exec_refuse t w' time p e⟩

/-- A run whose schema loads reports what happened to its files. Up to them the reader is told
nothing on the output. -/
theorem exec_tally {s : Schema} {dir : Option Path} {paths files : List Path}
    {os : List Outcome} {taken : σ}
    (hload : exec (loadSchema c schema) t w = ((.ok (p, .ok s), t), w'))
    (hplan : ∀ t, exec (plan c paths outDir) t w' = ((.ok (dir, files), t), w''))
    (htaken : ∀ t, exec (processFiles ⟨c.dialect, s, c.bindings, c.root, dir⟩ files) t w'' =
      ((.ok os, t), taken)) (time : String) (verbose : Bool) :
    ∃ errors, exec (tally c time paths schema outDir verbose) t w =
      ((.ok (Generate.report time os),
        { output := t.output ++ summaryLines (Generate.report time os).summary (failed os)
          errors := errors
          exitCode := if 0 < failed os then 1 else t.exitCode }), taken) := by
  unfold tally tallyWith
  rw [exec_bind_of_ok hload]
  obtain ⟨told, htold⟩ := exec_remark t w' verbose ["Relations: " ++ ", ".intercalate s.tableNames]
  obtain ⟨found, hfound⟩ := exec_remark { t with errors := told } w'' verbose
    [s!"Found {files.length} SQL file(s)"]
  dsimp only
  rw [exec_bind_of_ok htold, exec_bind_of_ok (hplan _), exec_bind_of_ok hfound,
    exec_bind_of_ok (htaken _)]
  exact ⟨_, exec_conclude _ taken time verbose os⟩

end

/-! ## The end of a run -/

section

variable {σ : Type}

/-- A step ends with a report at `p`, after some attempts to change files. It fails exactly when the
report is not saved, its exit code tells whether the report has errors, and it adds lines to the
output. -/
def EndsWith (x : WatchedStep σ Unit) (p : Path) (t : Transcript) (w : Watched σ)
    (attempts : List Event) (r : Report) (output : List String) : Prop :=
  ∃ result t' files saved,
    exec x t w = ((result, t'), ⟨files, w.journal ++ attempts ++ [.write p r.text saved]⟩) ∧
      (saved = true ↔ result = .ok ()) ∧
        t'.exitCode = (if 0 < r.summary.errors then 1 else t.exitCode) ∧
          t'.output = t.output ++ output

variable [FileAccess (StateM σ)]

/-- A report that is asked for is tried to be saved, and the exit code is kept. -/
theorem exec_saveReport (r : Report) (p : Path) (t : Transcript) (w : Watched σ) :
    ∃ result errors files saved,
      exec (saveReport r (some p) : WatchedStep σ Unit) t w =
        ((result, { t with errors := errors }), ⟨files, w.journal ++ [.write p r.text saved]⟩) ∧
      (saved = true ↔ result = .ok ()) := by
  obtain ⟨saving, files, es, hsave, rfl⟩ := yields_write p r.text w
  have hexec := exec_bind_of_ok (f := fun saving => do
    orFail (fun e => ⟨FileAction.saveReport.failure p, some e.message⟩) saving
    tell [s!"Report saved to: {p.text}"]) (hsave t)
  cases saving with
  | error e => exact ⟨_, _, _, false, hexec, by simp⟩
  | ok u => exact ⟨_, _, _, true, hexec, by simp⟩

/-- A run that has told its errors by the exit code ends with saving its report. -/
theorem endsWith_saveReport {x : WatchedStep σ Report} {p : Path} {t t' : Transcript}
    {w : Watched σ} {files : σ} {attempts : List Event} {r : Report} {output : List String}
    (hx : exec x t w = ((.ok r, t'), ⟨files, w.journal ++ attempts⟩))
    (hcode : t'.exitCode = if 0 < r.summary.errors then 1 else t.exitCode)
    (houtput : t'.output = t.output ++ output) :
    EndsWith (x >>= fun r => saveReport r (some p)) p t w attempts r output := by
  obtain ⟨result, errors, files', saved, hsave, hsaved⟩ :=
    exec_saveReport r p t' ⟨files, w.journal ++ attempts⟩
  refine ⟨result, { t' with errors := errors }, files', saved, ?_, hsaved, hcode, houtput⟩
  rw [exec_bind_of_ok hx, hsave]

/-- The account of a run that is to save its report, on any files. With a schema the run attempts
for the files that it finds, one after another, what their accounts say, and the report is an
account of them; without one it attempts nothing and reports the error at the schema file. Either
way the exit code tells whether there are errors. -/
theorem generate_accounts (c : Config) (time : String) (paths : List Path)
    (schema outDir : Option Path) (report : Path) (verbose : Bool) (t : Transcript)
    (w : Watched σ) :
    ∃ p loaded w', exec (loadSchema c schema) t w = ((.ok (p, loaded), t), w') ∧
      ∃ attempts r output,
        EndsWith (generate c time paths schema outDir (some report) verbose) report t w attempts r
          output ∧
        match loaded with
        | .error _ =>
            attempts = [] ∧ r.summary = ⟨1, 0, 0, 0, 0⟩ ∧ output = [] ∧
              ∃ d, r.diagnostics = [d] ∧ d.severity = .error ∧ d.location = some (.ofFile p.text)
        | .ok _ =>
            ∃ dir found w'', exec (plan c paths outDir) t w' = ((.ok (dir, found), t), w'') ∧
              output = summaryLines r.summary r.summary.errors ∧
                ∃ accounts : List FileAccount,
                  accounts.map (·.file) = found ∧ accounts.flatMap (·.attempts) = attempts ∧
                    (∀ a ∈ accounts, a.Settled c.root dir) ∧ IsAccountOf r accounts := by
  obtain ⟨⟨p, loaded⟩, files, _, hload, rfl⟩ := silent_loadSchema c schema w
  refine ⟨p, loaded, _, hload t, ?_⟩
  rw [generate_eq]
  cases loaded with
  | error e =>
      obtain ⟨errors, htally⟩ := exec_tally_of_error (hload t) time paths outDir verbose
      refine ⟨[], (Report.start time).add (e.diagnostic p), [], ?_, rfl, rfl, rfl, e.diagnostic p,
        rfl, rfl, rfl⟩
      exact endsWith_saveReport htally rfl (List.append_nil _).symm
  | ok s =>
      obtain ⟨⟨dir, found⟩, files', _, hplan, rfl⟩ :=
        silent_plan c paths outDir ⟨files, w.journal ++ []⟩
      obtain ⟨os, files'', attempts, htaken, accounts, hfound, hattempts, hsettled, hos⟩ :=
        yields_processFiles ⟨c.dialect, s, c.bindings, c.root, dir⟩ found
          ⟨files', w.journal ++ [] ++ []⟩
      obtain ⟨haccount, hfailed⟩ := isAccountOf_report time hsettled hos
      obtain ⟨errors, htally⟩ := exec_tally (hload t) hplan htaken time verbose
      refine ⟨attempts, _, _, ?_, dir, found, _, hplan t, rfl, accounts, hfound, hattempts,
        hsettled, haccount⟩
      -- Before the files are taken nothing is attempted.
      rw [List.append_nil, List.append_nil, hfailed] at htally
      exact endsWith_saveReport htally rfl rfl

end

end TypedSql.Program
