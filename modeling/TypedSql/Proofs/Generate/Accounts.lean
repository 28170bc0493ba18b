import TypedSql.Proofs.Analysis.Statements
import TypedSql.Proofs.Generate.Counts
import TypedSql.Proofs.ModuleName.Declarations
import TypedSql.Proofs.Program.Journal

namespace TypedSql

/-! # What a run does for its files

For every file a run tries to write one declaration and nothing else. Either the declaration is
there in the end and nothing found about the file is an error, or the only thing found is the error
for which it is not. All that is found is placed at the module of the file.
-/

namespace Analysis

/-- A file that has a contract has no errors. -/
theorem severity_of_analyze {d : Dialect} {schema : Schema} {source : String} {file : Option Path}
    {r : Contract} (h : analyze d schema source file = .ok r) :
    ∀ x ∈ r.diagnostics, x.severity ≠ .error := by
  obtain ⟨first, rest, contract, _, hcontract, rfl⟩ := analyze_eq_ok h
  intro x hx
  rcases List.mem_append.1 hx with hx | hx
  · rcases skipped_or_unknownColumn hcontract x hx with ⟨_, _, rfl⟩ | ⟨_, _, rfl⟩ <;>
      simp [Shape.skipped, Resolve.unknownColumn, Diagnostic.ofMessage]
  · split at hx
    · cases hx
    · rw [List.mem_singleton.1 hx]
      simp [ignored, Diagnostic.ofMessage]

end Analysis

/-- Outputs of the same name are never an error. -/
theorem Bindings.severity_of_clashes {names : InterfaceNames} {c : Contract} :
    ∀ x ∈ clashes names c, x.severity ≠ .error := by
  intro x hx
  obtain ⟨output, _, rfl⟩ := List.mem_map.1 hx
  simp [clash, Diagnostic.ofMessage]

namespace Generate

open Program ModuleName

/-- What is found about a file names the file, and is no error where the file has a declaration. -/
theorem located_of_ofSource {s : Settings} {file : Path} {module source text : String}
    {findings : List Diagnostic} (h : ofSource s file module source = .ok (text, findings)) :
    ∀ x ∈ findings, x.location = some (.ofFile module) ∧ x.severity ≠ .error := by
  obtain ⟨contract, hcontract, hparts⟩ := TypedSql.Outcome.bind_eq_ok.1 h
  cases hparts
  intro x hx
  obtain ⟨y, hy, rfl⟩ := List.mem_map.1 hx
  refine ⟨rfl, ?_⟩
  rcases List.mem_append.1 hy with hy | hy
  · exact Analysis.severity_of_analyze hcontract y hy
  · exact Bindings.severity_of_clashes y hy

/-- A failure is an error at the module of its file. -/
theorem diagnostic_of_failure (module : String) (failure : Failure) :
    (failure.diagnostic module).severity = .error ∧
      (failure.diagnostic module).location = some (.ofFile module) := by
  cases failure with
  | analysis e => exact ⟨rfl, rfl⟩
  | file f => exact ⟨rfl, rfl⟩

/-! ## The account of a file -/

/-- A file of a run with the attempts to change files that were made for it, and what was found
about it. -/
structure FileAccount where
  file : Path
  attempts : List Event
  findings : List Diagnostic

namespace FileAccount

/-- The texts that were written for the file, each with its path. -/
def written (a : FileAccount) : List (Path × String) := a.attempts.filterMap Event.written?

/-- Whether the file has no declaration in the end. -/
def isFailed (a : FileAccount) : Bool := a.written.isEmpty

/-- Nothing but the declaration of the file was written, all findings are placed at its module, and
the file has a declaration or one error. -/
structure Settled (root : Path) (outDir : Option Path) (a : FileAccount) : Prop where
  aimed : ∀ p text done, .write p text done ∈ a.attempts → p = declarationOf root outDir a.file
  placed : ∀ d ∈ a.findings, d.location = some (.ofFile (ofPath a.file root))
  decided :
    (∃ text, a.written = [(declarationOf root outDir a.file, text)] ∧
      ∀ d ∈ a.findings, d.severity ≠ .error) ∨
    (a.written = [] ∧ ∃ d, a.findings = [d] ∧ d.severity = .error)

variable {root : Path} {outDir : Option Path} {a : FileAccount}

/-- There is one error for a file that fails and none for another. -/
theorem Settled.countOf_error (h : Settled root outDir a) :
    Report.countOf .error a.findings = if a.isFailed then 1 else 0 := by
  rcases h.decided with ⟨text, hwritten, hmild⟩ | ⟨hwritten, d, hfindings, hsevere⟩
  · rw [isFailed, hwritten, Report.countOf, List.countP_eq_zero.2]
    · rfl
    · intro d hd
      simpa using hmild d hd
  · rw [isFailed, hwritten, hfindings]
    simp [Report.countOf, hsevere]

/-- There is one declaration for a file that does not fail. -/
theorem Settled.length_written (h : Settled root outDir a) :
    a.written.length = if a.isFailed then 0 else 1 := by
  rcases h.decided with ⟨text, hwritten, _⟩ | ⟨hwritten, _⟩ <;> rw [isFailed, hwritten] <;> rfl

end FileAccount

/-- What happened to a file is what its account says. -/
structure TellsOf (s : Settings) (file : Path) (o : Outcome) (es : List Event) : Prop where
  settled : FileAccount.Settled s.root s.outDir ⟨file, es, o.diagnostics⟩
  isWritten : o.isWritten = !(FileAccount.isFailed ⟨file, es, o.diagnostics⟩)

/-- Making directories writes no file. -/
theorem written_of_onlyDirectories {es : List Event} (h : OnlyDirectories es) :
    es.filterMap Event.written? = [] := by
  refine List.filterMap_eq_nil_iff.2 fun e he => ?_
  obtain ⟨p, done, rfl⟩ := h e he
  rfl

/-- After directories are made one file is written. -/
theorem aimed_of_write {directories : List Event} (h : OnlyDirectories directories) {p q : Path}
    {text text' : String} {done done' : Bool}
    (he : .write q text' done' ∈ directories ++ [.write p text done]) : q = p := by
  rcases List.mem_append.1 he with he | he
  · obtain ⟨_, _, heq⟩ := h _ he
    cases heq
  · cases List.mem_singleton.1 he
    rfl

/-- A failure before anything was written is told. -/
theorem tellsOf_failure {s : Settings} {file : Path} {failure : Failure} {es : List Event}
    (haimed : ∀ p text done, .write p text done ∈ es → p = declarationOf s.root s.outDir file)
    (hwritten : es.filterMap Event.written? = []) :
    TellsOf s file ⟨ofPath file s.root, .error failure⟩ es where
  settled :=
    { aimed := haimed
      placed := by
        intro d hd
        rw [List.mem_singleton.1 hd]
        exact (diagnostic_of_failure _ failure).2
      decided := .inr ⟨hwritten, _, rfl, (diagnostic_of_failure _ failure).1⟩ }
  isWritten := by
    rw [FileAccount.isFailed, FileAccount.written, hwritten]
    rfl

section

variable {σ : Type} [FileAccess (StateM σ)] (s : Settings)

/-- Makes the directories above a path. -/
def makeAbove {m : Type → Type} [Monad m] [FileAccess m] (p : Path) :
    m (Except FileFailure Unit) :=
  match p.parent with
  | none => pure (.ok ())
  | some parent =>
      (Except.mapError fun e => ⟨.create, parent, e⟩) <$> FileAccess.makeDirectories parent

/-- A declaration is written after the directories above it are made. -/
theorem writeDeclaration_eq {m : Type → Type} [Monad m] [FileAccess m] (p : Path) (text : String) :
    (writeDeclaration p text : m _) = makeAbove p >>= fun made => match made with
      | .error failure => return .error failure
      | .ok () => do return (← FileAccess.write p text).mapError fun e => ⟨.write, p, e⟩ := by
  unfold writeDeclaration makeAbove
  cases p.parent <;> rfl

/-- Making the directories above a file makes directories only. -/
theorem yields_makeAbove (p : Path) :
    Yields (makeAbove p : WatchedStep σ _) fun _ es => OnlyDirectories es := by
  unfold makeAbove
  cases p.parent with
  | none => exact .pure nofun
  | some parent => exact .map (yields_makeDirectories parent)

/-- The directories above a declaration are made first; then the declaration is written, unless one
of them could not be made. -/
theorem yields_writeDeclaration (p : Path) (text : String) :
    Yields (writeDeclaration p text : WatchedStep σ _) fun result es =>
      ∃ directories, OnlyDirectories directories ∧
        ((∃ e, result = .error e ∧ es = directories) ∨
          (∃ e, result = .error e ∧ es = directories ++ [.write p text false]) ∨
          (result = .ok () ∧ es = directories ++ [.write p text true])) := by
  rw [writeDeclaration_eq]
  refine (yields_makeAbove p).bind fun made directories hdirectories => ?_
  cases made with
  | error failure =>
      exact .pure ⟨directories, hdirectories, .inl ⟨failure, rfl, by rw [List.append_nil]⟩⟩
  | ok u =>
      refine (yields_write p text).bind fun result es hes => .pure ?_
      rw [List.append_nil, hes]
      refine ⟨directories, hdirectories, .inr ?_⟩
      cases result with
      | error e => exact .inl ⟨_, rfl, rfl⟩
      | ok u => exact .inr ⟨rfl, rfl⟩

/-- Taking a file makes the events that the account of the file tells. -/
theorem yields_processFile (file : Path) :
    Yields (processFile s file : WatchedStep σ _) (TellsOf s file) := by
  -- Only a file that is read and analyzed gets as far as an attempt to write.
  unfold processFile
  refine (silent_read file).bind fun source => ?_
  cases source with
  | error e => exact .pure (tellsOf_failure nofun rfl)
  | ok source =>
      dsimp only
      cases hsource : ofSource s file (ofPath file s.root) source with
      | error e => exact .pure (tellsOf_failure nofun rfl)
      | ok declared =>
          obtain ⟨text, findings⟩ := declared
          refine (yields_writeDeclaration _ text).bind fun result es hes => ?_
          obtain ⟨directories, hdirectories, hcases⟩ := hes
          have hnone := written_of_onlyDirectories hdirectories
          rcases hcases with ⟨e, rfl, rfl⟩ | ⟨e, rfl, rfl⟩ | ⟨rfl, rfl⟩
          · refine .pure (tellsOf_failure ?_ (by simpa using hnone))
            rw [List.append_nil]
            intro p text' done he
            obtain ⟨_, _, heq⟩ := hdirectories _ he
            cases heq
          · refine .pure (tellsOf_failure ?_ ?_)
            · rw [List.append_nil]
              exact fun p text' done he => aimed_of_write hdirectories he
            · simp [hnone, Event.written?]
          · refine .pure ⟨⟨?_, ?_, .inl ⟨text, ?_, ?_⟩⟩, ?_⟩
            · rw [List.append_nil]
              exact fun p text' done he => aimed_of_write hdirectories he
            · exact fun d hd => (located_of_ofSource hsource d hd).1
            · simp [FileAccount.written, hnone, Event.written?, declarationOf]
            · exact fun d hd => (located_of_ofSource hsource d hd).2
            · simp [FileAccount.isFailed, FileAccount.written, hnone, Event.written?,
                Outcome.isWritten]

/-- What happened to files, one after another, is what their accounts say. -/
theorem yields_processFiles (files : List Path) :
    Yields (processFiles s files : WatchedStep σ _) fun os es => ∃ accounts : List FileAccount,
      accounts.map (·.file) = files ∧ accounts.flatMap (·.attempts) = es ∧
        (∀ a ∈ accounts, a.Settled s.root s.outDir) ∧
          accounts.map (fun a => (a.findings, a.isFailed)) =
            os.map fun o => (o.diagnostics, !o.isWritten) := by
  refine (Yields.mapM fun file _ => yields_processFile s file).mono fun os es hparts => ?_
  obtain ⟨parts, hfiles, hos, hes, htells⟩ := hparts
  refine ⟨parts.map fun part => ⟨part.1, part.2.2, part.2.1.diagnostics⟩, ?_, ?_, ?_, ?_⟩
  · rw [← hfiles, List.map_map]
    rfl
  · rw [← hes, List.flatMap_map]
  · intro a ha
    obtain ⟨part, hpart, rfl⟩ := List.mem_map.1 ha
    exact (htells part hpart).settled
  · rw [← hos, List.map_map, List.map_map]
    refine List.map_congr_left fun part hpart => ?_
    have hwritten := (htells part hpart).isWritten
    simp only [Function.comp_apply, hwritten, Bool.not_not]

end

/-! ## The report -/

namespace FileAccount

variable {root : Path} {outDir : Option Path} {accounts : List FileAccount}

/-- There are as many errors as files that fail. -/
theorem countOf_error_findings (h : ∀ a ∈ accounts, a.Settled root outDir) :
    Report.countOf .error (accounts.flatMap (·.findings)) = accounts.countP (·.isFailed) := by
  induction accounts with
  | nil => rfl
  | cons a as ih =>
      have hfirst := (h a List.mem_cons_self).countOf_error
      have hrest := ih fun a' ha' => h a' (List.mem_cons_of_mem a ha')
      rw [List.flatMap_cons, Report.countOf, List.countP_append, List.countP_cons]
      rw [Report.countOf] at hfirst hrest
      rw [hfirst, hrest, Nat.add_comm]

/-- Files fail or have a declaration. -/
theorem length_flatMap_written (h : ∀ a ∈ accounts, a.Settled root outDir) :
    (accounts.flatMap (·.written)).length + accounts.countP (·.isFailed) = accounts.length := by
  induction accounts with
  | nil => rfl
  | cons a as ih =>
      have hfirst := (h a List.mem_cons_self).length_written
      have hrest := ih fun a' ha' => h a' (List.mem_cons_of_mem a ha')
      rw [List.flatMap_cons, List.length_append, List.countP_cons, List.length_cons, hfirst]
      cases a.isFailed <;> simp only [Bool.false_eq_true, if_false, if_true] <;> omega

end FileAccount

/-- A report says of files, each with its account, what the accounts say. -/
structure IsAccountOf (r : Report) (accounts : List FileAccount) : Prop where
  diagnostics : r.diagnostics = accounts.flatMap (·.findings)
  filesAnalyzed : r.summary.filesAnalyzed = accounts.length
  errors : r.summary.errors = accounts.countP (·.isFailed)
  declarationsWritten : r.summary.declarationsWritten = (accounts.flatMap (·.written)).length
  total : r.summary.declarationsWritten + r.summary.errors = r.summary.filesAnalyzed

/-- The report of outcomes is an account of their files. -/
theorem isAccountOf_report {root : Path} {outDir : Option Path} (time : String)
    {os : List Outcome} {accounts : List FileAccount}
    (hsettled : ∀ a ∈ accounts, a.Settled root outDir)
    (hos : accounts.map (fun a => (a.findings, a.isFailed)) =
      os.map fun o => (o.diagnostics, !o.isWritten)) :
    IsAccountOf (report time os) accounts ∧ failed os = (report time os).summary.errors := by
  have hfindings : os.flatMap Outcome.diagnostics = accounts.flatMap (·.findings) := by
    have := congrArg (List.flatMap Prod.fst) hos
    rw [List.flatMap_map, List.flatMap_map] at this
    exact this.symm
  have hfailed : failed os = accounts.countP (·.isFailed) := by
    have := congrArg (List.countP Prod.snd) hos
    rw [List.countP_map, List.countP_map] at this
    exact this.symm
  have hlength : os.length = accounts.length := by
    have := congrArg List.length hos
    rw [List.length_map, List.length_map] at this
    exact this.symm
  have herrors : (report time os).summary.errors = accounts.countP (·.isFailed) := by
    rw [summary_report, hfindings]
    exact FileAccount.countOf_error_findings hsettled
  -- Whatever has no declaration has failed, so the declarations are counted by the accounts too.
  have hwritten : os.countP Outcome.isWritten + failed os = os.length := by
    rw [List.length_eq_countP_add_countP Outcome.isWritten (l := os), failed]
    simp only [Bool.not_eq_true, Bool.decide_eq_false]
  have htotal := FileAccount.length_flatMap_written hsettled
  refine ⟨⟨?_, ?_, herrors, ?_, ?_⟩, hfailed.trans herrors.symm⟩
  · rw [diagnostics_report, hfindings]
  · rw [summary_report, hlength]
  · rw [summary_report]
    change os.countP Outcome.isWritten = _
    omega
  · rw [herrors, summary_report]
    change os.countP Outcome.isWritten + _ = os.length
    omega

end Generate

end TypedSql
