import TypedSql.Proofs.Generate.Counts
import TypedSql.Proofs.Generate.Independence
import TypedSql.Proofs.Program.Generate

namespace TypedSql

open TypedSql.Path FileTree

/-! # A run on a tree

On a tree of files a run makes its paths absolute, finds its files, takes them one after another and
saves its report in the end. What the report holds and what is at the paths of the declarations is
what a run over each file alone leaves, as long as no declaration and no report is written over a
declaration.
-/

namespace Program

/-! ## Taking files -/

section

variable {σ : Type} [FileAccess (StateM σ)]

/-- Making the directories above a file acts on the files only. -/
theorem acts_makeAbove (p : Path) :
    Acts (Generate.makeAbove p : Step (StateM σ) _) (Generate.makeAbove p) := by
  unfold Generate.makeAbove
  cases p.parent with
  | none => exact .pure _
  | some parent => exact (acts_makeDirectories parent).map _

/-- Writing a declaration acts on the files only. -/
theorem acts_writeDeclaration (p : Path) (text : String) :
    Acts (Generate.writeDeclaration p text : Step (StateM σ) _)
      (Generate.writeDeclaration p text) := by
  rw [Generate.writeDeclaration_eq, Generate.writeDeclaration_eq]
  refine (acts_makeAbove p).bind fun made => ?_
  cases made with
  | error failure => exact .pure _
  | ok u => exact (acts_write p text).bind fun _ => .pure _

/-- Taking a file acts on the files only. -/
theorem acts_processFile (s : Generate.Settings) (file : Path) :
    Acts (Generate.processFile s file : Step (StateM σ) _) (Generate.processFile s file) := by
  unfold Generate.processFile
  refine (acts_read file).bind fun content => ?_
  cases content with
  | error e => exact .pure _
  | ok source =>
      dsimp only
      cases Generate.ofSource s file (ModuleName.ofPath file s.root) source with
      | error e => exact .pure _
      | ok parts =>
          refine (acts_writeDeclaration _ parts.1).bind fun written => ?_
          cases written <;> exact .pure _

/-- Taking files one after another acts on the files only. -/
theorem acts_processFiles (s : Generate.Settings) (files : List Path) :
    Acts (Generate.processFiles s files : Step (StateM σ) _) (Generate.processFiles s files) :=
  Acts.mapM files (acts_processFile s)

end

/-! ## The plan of a run -/

/-- A path that does not depend on the working directory of a tree. -/
def absoluteIn (t : FileTree) (p : Path) : Path :=
  if p.isAbsolute then p else t.workingPath.join p

/-- Where a run on a tree looks for its files. -/
def rootsIn (t : FileTree) (c : Config) (paths : List Path) : List Path :=
  if paths.isEmpty then c.sources.map c.resolve else paths.map (absoluteIn t)

/-- The directory that the declarations of a run on a tree go to, if there is one. -/
def targetIn (t : FileTree) (c : Config) : Option Path → Option Path
  | some dir => some (absoluteIn t dir)
  | none => c.outDir.map c.resolve

section

variable {t : FileTree} {c : Config}

/-- A path that was made absolute is absolute. -/
theorem isAbsolute_absoluteIn (t : FileTree) (p : Path) : (absoluteIn t p).isAbsolute = true := by
  have hworking : t.workingPath.isAbsolute = true := by
    simp [workingPath, isAbsolute]
  unfold absoluteIn
  split
  · assumption
  · exact isAbsolute_join hworking p

/-- The roots of a run are absolute where the root of its configuration is. -/
theorem isAbsolute_of_mem_rootsIn (hroot : c.root.isAbsolute = true) {paths : List Path} :
    ∀ root ∈ rootsIn t c paths, root.isAbsolute = true := by
  intro root hmem
  unfold rootsIn at hmem
  split at hmem
  · obtain ⟨source, -, rfl⟩ := List.mem_map.1 hmem
    exact isAbsolute_join hroot source
  · obtain ⟨p, -, rfl⟩ := List.mem_map.1 hmem
    exact isAbsolute_absoluteIn t p

theorem run_absolute (p : Path) (t : FileTree) :
    FileTree.run (FileAccess.absolute p) t = (absoluteIn t p, t) := by
  unfold FileAccess.absolute absoluteIn
  split <;> rfl

theorem exec_absolute (p : Path) (tr : Transcript) (t : FileTree) :
    exec (FileAccess.absolute p : Step (StateM FileTree) Path) tr t =
      ((.ok (absoluteIn t p), tr), t) := by
  have hacts := acts_absolute p tr t
  rwa [show (FileAccess.absolute p : StateM FileTree Path).run t = (absoluteIn t p, t) from
    run_absolute p t] at hacts

/-- Paths are made absolute one by one, as the tree says. -/
theorem exec_absoluteAll (paths : List Path) (tr : Transcript) (t : FileTree) :
    exec (absoluteAll paths : Step (StateM FileTree) _) tr t =
      ((.ok (paths.map (absoluteIn t)), tr), t) := by
  unfold absoluteAll
  induction paths with
  | nil => rfl
  | cons p paths ih =>
      rw [List.mapM_cons, exec_bind_of_ok (exec_absolute p tr t), exec_bind_of_ok ih]
      rfl

/-- The SQL files are found as the tree says. -/
theorem exec_sqlFiles (roots : List Path) (tr : Transcript) (t : FileTree) :
    exec (Discovery.sqlFiles roots : Step (StateM FileTree) _) tr t =
      ((.ok (FileTree.run (Discovery.sqlFiles roots) t).1, tr), t) := by
  rw [acts_sqlFiles roots tr t]
  exact congrArg _ (congrArg Prod.snd (Discovery.run_sqlFiles roots t))

/-- The plan of a run on a tree, which leaves the tree as it is. -/
theorem exec_plan (c : Config) (paths : List Path) (outDir : Option Path) (tr : Transcript)
    (t : FileTree) :
    exec (plan c paths outDir : Step (StateM FileTree) _) tr t =
      ((.ok (targetIn t c outDir, (FileTree.run (Discovery.sqlFiles (rootsIn t c paths)) t).1), tr),
        t) := by
  have hroots : exec (rootsOf c paths : Step (StateM FileTree) _) tr t =
      ((.ok (rootsIn t c paths), tr), t) := by
    unfold rootsOf rootsIn
    split
    · rfl
    · exact exec_absoluteAll paths tr t
  have hdir : exec (targetOf c outDir : Step (StateM FileTree) _) tr t =
      ((.ok (targetIn t c outDir), tr), t) := by
    cases outDir with
    | none => rfl
    | some dir =>
        dsimp only [targetOf]
        rw [map_eq_pure_bind, exec_bind_of_ok (exec_absolute dir tr t)]
        rfl
  unfold plan
  rw [exec_bind_of_ok hroots, exec_bind_of_ok hdir, exec_bind_of_ok (exec_sqlFiles _ tr t)]
  rfl

end

/-! ## The configuration of a run -/

section

variable {m : Type → Type} [Monad m] [FileAccess m]

/-- The configuration of a run as it is read, if there is one to be read. -/
def readConfig (path : Option Path) (verbose : Bool) : Step m Config :=
  match path with
  | some p => do
      orFail (fun e => ⟨s!"Failed to load config {p.text}", some e.message⟩) (← Config.ofFile p)
  | none => do
      if ← FileAccess.isPresent configFile then
        orFail (fun e => ⟨e.message, none⟩) (← Config.ofFile configFile)
      else do
        remark verbose ["No config file found, using defaults"]
        return .standard (← FileAccess.workingDirectory)

/-- The end of loading a configuration, which makes its root absolute. -/
def rooted (verbose : Bool) (c : Config) : Step m Config := do
  let root ← FileAccess.absolute c.root
  remark verbose [s!"Using dialect: {dialectTitle c.dialect}"]
  return { c with root }

/-- A configuration is read before it is given its root. -/
theorem loadConfig_eq [LawfulMonad m] (path : Option Path) (verbose : Bool) :
    (loadConfig path verbose : Step m Config) = readConfig path verbose >>= rooted verbose := by
  unfold loadConfig readConfig rooted remark
  cases path with
  | some p => cases verbose <;> simp
  | none =>
      simp only [bind_assoc]
      refine bind_congr fun there => ?_
      cases there <;> cases verbose <;> simp

end

/-- The root of a configuration that is loaded is absolute. -/
theorem isAbsolute_root_of_loadConfig {path : Option Path} {verbose : Bool} {tr tr' : Transcript}
    {t t' : FileTree} {c : Config}
    (h : exec (loadConfig path verbose) tr t = ((.ok c, tr'), t')) : c.root.isAbsolute = true := by
  rw [loadConfig_eq] at h
  obtain ⟨c₀, tr₀, t₀, -, hrooted⟩ := exec_bind_eq_ok h
  unfold rooted at hrooted
  rw [exec_bind_of_ok (exec_absolute c₀.root tr₀ t₀)] at hrooted
  obtain ⟨-, _, _, -, hreturn⟩ := exec_bind_eq_ok hrooted
  cases hreturn
  exact isAbsolute_absoluteIn t₀ c₀.root

/-! ## The report of a run -/

section

variable (r : Report) (tr : Transcript) (t : FileTree)

/-- Saving a report leaves the tree that writing it leaves, and fails where that is refused. -/
theorem exec_saveReport_some (p : Path) :
    (exec (saveReport r (some p)) tr t).2 = (FileTree.run (FileAccess.write p r.text) t).2 ∧
      ((exec (saveReport r (some p)) tr t).1.1 = .ok () →
        (FileTree.run (FileAccess.write p r.text) t).1 = .ok ()) := by
  have hexec := exec_bind_of_ok (f := fun saving => do
    orFail (fun e => ⟨FileAction.saveReport.failure p, some e.message⟩) saving
    tell [s!"Report saved to: {p.text}"]) (acts_write p r.text tr t)
  have hsave : exec (saveReport r (some p) : Step (StateM FileTree) Unit) tr t = _ := hexec
  have hrun : (FileAccess.write p r.text : StateM FileTree _).run t =
      FileTree.run (FileAccess.write p r.text) t := rfl
  rw [hsave, hrun]
  obtain ⟨saving, t'⟩ := FileTree.run (FileAccess.write p r.text) t
  cases saving with
  | error e => exact ⟨rfl, nofun⟩
  | ok u => exact ⟨rfl, fun _ => rfl⟩

/-- Saving a report makes no difference at paths with other places than that of the report, and
where it succeeds the report is read from its path. -/
theorem at?_saveReport (report : Option Path) :
    let saved := exec (saveReport r report) tr t
    (∀ q, (∀ p, report = some p → t.place q ≠ t.place p) → saved.2.at? q = t.at? q) ∧
      ∀ p, report = some p → saved.1.1 = .ok () → saved.2.read p = .ok r.text := by
  intro saved
  cases report with
  | none => exact ⟨fun q _ => rfl, nofun⟩
  | some p =>
      obtain ⟨htree, hdone⟩ := exec_saveReport_some r tr t p
      rw [show exec (saveReport r (some p)) tr t = saved from rfl] at htree hdone
      rw [run_write] at htree hdone
      cases hwrite : t.write p r.text with
      | error e =>
          rw [hwrite] at htree hdone
          refine ⟨fun q _ => congrArg (·.at? q) htree, fun p' _ hok => ?_⟩
          cases hdone hok
      | ok t' =>
          rw [hwrite] at htree
          have hsaved : saved.2 = t' := htree
          obtain ⟨-, hfile, hput⟩ := eq_put_of_write hwrite
          refine ⟨fun q hq => ?_, fun p' hp _ => ?_⟩
          · rw [hsaved, hput]
            exact at?_put_file hfile r.text (hq p rfl)
          · obtain rfl : p = p' := Option.some.inj hp
            rw [hsaved]
            exact read_of_write hwrite

end

/-! ## A run and the runs over each file alone -/

section

variable {c : Config} {paths files : List Path} {schema outDir dir : Option Path} {tr : Transcript}
  {t : FileTree} {schemaFile : Path} {s : Schema}

/-- A run takes the files that it has planned for and then saves a report of what happened to
them. -/
theorem exec_generate
    (hload : exec (loadSchema c schema) tr t = ((.ok (schemaFile, .ok s), tr), t))
    (hplan : exec (plan c paths outDir) tr t = ((.ok (dir, files), tr), t)) (time : String)
    (report : Option Path) (verbose : Bool) :
    let taken := FileTree.run (Generate.processFiles ⟨c.dialect, s, c.bindings, c.root, dir⟩ files) t
    ∃ tr', exec (tally c time paths schema outDir verbose) tr t =
        ((.ok (Generate.report time taken.1), tr'), taken.2) ∧
      exec (generate c time paths schema outDir report verbose) tr t =
        exec (saveReport (Generate.report time taken.1) report) tr' taken.2 := by
  intro taken
  have hplanned : ∀ tr, exec (plan c paths outDir) tr t = ((.ok (dir, files), tr), t) := by
    rw [exec_plan] at hplan
    cases hplan
    exact fun tr => exec_plan c paths outDir tr t
  obtain ⟨errors, htally⟩ := exec_tally hload hplanned
    (fun tr => acts_processFiles _ files tr t) time verbose
  refine ⟨_, htally, ?_⟩
  rw [generate_eq, exec_bind_of_ok htally]
  rfl

/-- Away from the place of the report a run leaves what taking its files leaves. -/
theorem at?_generate
    (hload : exec (loadSchema c schema) tr t = ((.ok (schemaFile, .ok s), tr), t))
    (hplan : exec (plan c paths outDir) tr t = ((.ok (dir, files), tr), t))
    (hready : Generate.Ready ⟨c.dialect, s, c.bindings, c.root, dir⟩ t files) (time : String)
    (verbose : Bool) {report : Option Path} {q : Path}
    (hq : ∀ p, report = some p → t.place q ≠ t.place p) :
    (exec (generate c time paths schema outDir report verbose) tr t).2.at? q =
      (FileTree.run (Generate.processFiles ⟨c.dialect, s, c.bindings, c.root, dir⟩ files)
        t).2.at? q := by
  obtain ⟨tr', -, hgenerate⟩ := exec_generate hload hplan time report verbose
  obtain ⟨-, hgrown⟩ := hready.outcomes
  rw [hgenerate]
  refine (at?_saveReport _ tr' _ report).1 q fun p hp => ?_
  rw [hgrown.place_eq, hgrown.place_eq]
  exact hq p hp

/-- The plan of a run over one of the files of a run is that file, with the same directory. -/
theorem exec_plan_alone (ht : t.WellFormed) (hroot : c.root.isAbsolute = true)
    (hplan : exec (plan c paths outDir) tr t = ((.ok (dir, files), tr), t)) {file : Path}
    (hfile : file ∈ files) : exec (plan c [file] outDir) tr t = ((.ok (dir, [file]), tr), t) := by
  rw [exec_plan] at hplan ⊢
  cases hplan
  obtain ⟨-, hfound⟩ := Discovery.found_sqlFiles ht (rootsIn t c paths)
  obtain ⟨hsql, node, hat, hnode⟩ := hfound file hfile
  have habsolute : file.isAbsolute = true :=
    Discovery.isAbsolute_of_mem_sqlFiles (isAbsolute_of_mem_rootsIn hroot) file hfile
  have hroots : rootsIn t c [file] = [file] := by
    simp [rootsIn, absoluteIn, habsolute]
  rw [hroots, Discovery.run_sqlFiles_file ht hsql hat hnode]

end

/-- A run over some files, of which no declaration has the place of another one, a place below that,
or the place of the report, on a tree where writing to one of them makes no path lead elsewhere. The
files are taken in the order of their paths. What happens to each of them is what happens to it in
the tree as it was, so the report lists what is found about each file alone, as the report of a run
over that file does; and where the report is saved it can be read. After the run the declaration of
a file that succeeds holds the text that it holds after the run over that file alone, and where the
analysis of a file fails there is what there was. A configuration that is loaded has an absolute
root, as it is to have here. -/
theorem files_independent {c : Config} {paths files : List Path}
    {schema outDir dir report : Option Path} {tr : Transcript} {t : FileTree} {schemaFile : Path}
    {s : Schema} (time : String) (verbose : Bool) (ht : t.WellFormed)
    (hroot : c.root.isAbsolute = true)
    (hload : exec (loadSchema c schema) tr t = ((.ok (schemaFile, .ok s), tr), t))
    (hplan : exec (plan c paths outDir) tr t = ((.ok (dir, files), tr), t))
    (hout : ∀ d, dir = some d → t.LeadsTo d)
    (hapart : files.Pairwise fun f g =>
      t.Apart (ModuleName.declarationOf c.root dir f) (ModuleName.declarationOf c.root dir g))
    (hreport : ∀ p, report = some p → ∀ f ∈ files,
      t.place (ModuleName.declarationOf c.root dir f) ≠ t.place p) :
    let settings : Generate.Settings := ⟨c.dialect, s, c.bindings, c.root, dir⟩
    let outcome := fun f => (FileTree.run (Generate.processFile settings f) t).1
    let tallied := fun paths => exec (tally c time paths schema outDir verbose) tr t
    let after := fun paths => exec (generate c time paths schema outDir report verbose) tr t
    files.Pairwise (fun f g => f.lt g = true) ∧
      (FileTree.run (Generate.processFiles settings files) t).1 = files.map outcome ∧
      (∃ r, (tallied paths).1.1 = .ok r ∧
        r.diagnostics = files.flatMap (fun f => (outcome f).diagnostics) ∧
        ∀ p, report = some p → (after paths).1.1 = .ok () →
          (after paths).2.read p = .ok r.text) ∧
      ∀ f ∈ files,
        (∃ r, (tallied [f]).1.1 = .ok r ∧ r.diagnostics = (outcome f).diagnostics) ∧
        ((outcome f).isWritten = true → ∃ text,
          (after paths).2.at? (settings.declaration f) = some (.file text) ∧
            (after [f]).2.at? (settings.declaration f) = some (.file text)) ∧
        ∀ e, (outcome f).result = .error (.analysis e) →
          (after paths).2.at? (settings.declaration f) = t.at? (settings.declaration f) := by
  intro settings outcome tallied after
  obtain ⟨tr', htally, hgenerate⟩ := exec_generate hload hplan time report verbose
  obtain ⟨hfiles, hready⟩ : files = (FileTree.run (Discovery.sqlFiles (rootsIn t c paths)) t).1 ∧
      Generate.Ready settings t files := by
    have hplanned := hplan
    rw [exec_plan] at hplanned
    cases hplanned
    exact ⟨rfl, Generate.ready_sqlFiles ht hout hapart⟩
  have hsorted : files.Pairwise (fun f g => f.lt g = true) := by
    rw [hfiles]
    exact (Discovery.found_sqlFiles ht _).1
  refine ⟨hsorted, hready.outcomes.1, ⟨_, congrArg (·.1.1) htally, ?_, fun p hp hdone => ?_⟩,
    fun f hf => ?_⟩
  · rw [Generate.diagnostics_report, hready.outcomes.1, List.flatMap_map]
  · rw [show after paths = _ from hgenerate] at hdone ⊢
    exact (at?_saveReport _ tr' _ report).2 p hp hdone
  -- The run over the file alone starts in the same tree, with the same directory.
  have halone := exec_plan_alone ht hroot hplan hf
  have hsingle : Generate.Ready settings t [f] := hready.sublist (List.singleton_sublist.2 hf)
  have hone := Generate.run_processFiles_one settings f t
  obtain ⟨hwritten, huntouched⟩ := hready.at?_alike hf
  have hpaths : (after paths).2.at? (settings.declaration f) = _ :=
    at?_generate hload hplan hready time verbose fun p hp => hreport p hp f hf
  have hfile : (after [f]).2.at? (settings.declaration f) = _ :=
    at?_generate hload halone hsingle time verbose fun p hp => hreport p hp f hf
  rw [hone] at hfile
  refine ⟨?_, fun hdone => ?_, fun e hfailed => hpaths.trans (huntouched e hfailed)⟩
  · obtain ⟨_, htold, -⟩ := exec_generate hload halone time report verbose
    refine ⟨_, congrArg (·.1.1) htold, ?_⟩
    rw [Generate.diagnostics_report, hone]
    exact List.append_nil _
  · obtain ⟨text, hall, hthere⟩ := hwritten hdone
    exact ⟨text, hpaths.trans hall, hfile.trans hthere⟩

/-- Three SQL files in two directories below a schema, of which the second one does not hold a
statement. -/
def threeFiles : FileTree :=
  (((FileTree.empty.putWithDirectories ["p", "b.sql"] (.file "select :y")).putWithDirectories
    ["p", "a", "two.sql"] (.file "select (")).putWithDirectories ["p", "a", "one.sql"]
      (.file "select :x")).putWithDirectories ["p", "schema.json"] (.file "{}")

/-- Of three files two have declarations, and the one between them is a failure. -/
theorem files_independent_three :
    let c : Config := ⟨.postgres, ⟨"schema.json"⟩, [⟨"."⟩], some ⟨"out"⟩, .standard, ⟨"/p"⟩⟩
    let tr : Transcript := ⟨[], [], 0⟩
    let files : List Path := [⟨"/p/a/one.sql"⟩, ⟨"/p/a/two.sql"⟩, ⟨"/p/b.sql"⟩]
    let declaration := ModuleName.declarationOf ⟨"/p"⟩ (some ⟨"/p/out"⟩)
    let after := fun paths =>
      exec (generate c "now" paths none none (some ⟨"/p/report.json"⟩) false) tr threeFiles
    threeFiles.WellFormed ∧ c.root.isAbsolute = true ∧
      exec (loadSchema c none) tr threeFiles =
        ((.ok (⟨"/p/schema.json"⟩, .ok .empty), tr), threeFiles) ∧
      exec (plan c [⟨"/p"⟩] none) tr threeFiles =
        ((.ok (some ⟨"/p/out"⟩, files), tr), threeFiles) ∧
      (∀ d, some ⟨"/p/out"⟩ = some d → threeFiles.LeadsTo d) ∧
      (files.Pairwise fun f g => threeFiles.Apart (declaration f) (declaration g)) ∧
      (∀ p, some ⟨"/p/report.json"⟩ = some p → ∀ f ∈ files,
        threeFiles.place (declaration f) ≠ threeFiles.place p) ∧
      (∃ r, (exec (tally c "now" [⟨"/p"⟩] none none false) tr threeFiles).1.1 = .ok r ∧
        r.diagnostics.map Diagnostic.text =
          ["a/one.sql: info [SQL_UNSUPPORTED_SHAPE] Skipped unsupported projection `:x`",
            "a/two.sql: error [SQL_PARSE_ERROR] Failed to parse SQL: sql parser error: " ++
              "Expected: an expression, found: EOF",
            "b.sql: info [SQL_UNSUPPORTED_SHAPE] Skipped unsupported projection `:y`"]) ∧
      (∃ text, (after [⟨"/p"⟩]).2.at? ⟨"/p/out/b.sql.d.ts"⟩ = some (.file text) ∧
        (after [⟨"/p/b.sql"⟩]).2.at? ⟨"/p/out/b.sql.d.ts"⟩ = some (.file text)) ∧
      (after [⟨"/p"⟩]).2.at? ⟨"/p/out/a/two.sql.d.ts"⟩ = none := by
  intro c tr files declaration after
  have hfiles : (FileTree.run (Discovery.sqlFiles [⟨"/p"⟩]) threeFiles).1 = files := by
    have hfound : ([⟨"/p"⟩].flatMap threeFiles.filesBelow).filter Discovery.isSql =
        [⟨"/p/a/one.sql"⟩, ⟨"/p/a/two.sql"⟩, ⟨"/p/b.sql"⟩] := by decide +kernel
    rw [Discovery.run_sqlFiles, hfound]
    exact Discovery.inOrder_of_pairwise (by decide +kernel)
  have ht : threeFiles.WellFormed := by decide +kernel
  have hroot : c.root.isAbsolute = true := by decide
  have hload : exec (loadSchema c none) tr threeFiles =
      ((.ok (⟨"/p/schema.json"⟩, .ok .empty), tr), threeFiles) := by decide +kernel
  have hplan : exec (plan c [⟨"/p"⟩] none) tr threeFiles =
      ((.ok (some ⟨"/p/out"⟩, files), tr), threeFiles) := by
    have hroots : rootsIn threeFiles c [⟨"/p"⟩] = [⟨"/p"⟩] := by decide
    have hdir : targetIn threeFiles c none = some ⟨"/p/out"⟩ := by decide
    rw [exec_plan, hroots, hdir, hfiles]
  have hout : ∀ d, some ⟨"/p/out"⟩ = some d → threeFiles.LeadsTo d := by
    rintro d ⟨⟩
    decide +kernel
  have hapart : files.Pairwise fun f g => threeFiles.Apart (declaration f) (declaration g) := by
    decide +kernel
  have hreport : ∀ p, some ⟨"/p/report.json"⟩ = some p → ∀ f ∈ files,
      threeFiles.place (declaration f) ≠ threeFiles.place p := by
    rintro p ⟨⟩
    decide +kernel
  have hb : ModuleName.declarationOf ⟨"/p"⟩ (some ⟨"/p/out"⟩) ⟨"/p/b.sql"⟩ =
      ⟨"/p/out/b.sql.d.ts"⟩ := by decide +kernel
  have htwo : ModuleName.declarationOf ⟨"/p"⟩ (some ⟨"/p/out"⟩) ⟨"/p/a/two.sql"⟩ =
      ⟨"/p/out/a/two.sql.d.ts"⟩ := by decide +kernel
  obtain ⟨-, -, ⟨r, hr, hdiagnostics, -⟩, heach⟩ :=
    files_independent "now" false ht hroot hload hplan hout hapart hreport
  simp only [Generate.Settings.declaration] at heach
  beta_reduce at hr
  refine ⟨ht, hroot, hload, hplan, hout, hapart, hreport, ⟨r, hr, ?_⟩, ?_, ?_⟩
  · rw [hdiagnostics]
    decide +kernel
  · obtain ⟨-, hwritten, -⟩ := heach ⟨"/p/b.sql"⟩ (by decide)
    rw [hb] at hwritten
    exact hwritten (by decide +kernel)
  · obtain ⟨-, -, huntouched⟩ := heach ⟨"/p/a/two.sql"⟩ (by decide)
    rw [htwo] at huntouched
    -- The parenthesis of the second file is never closed.
    have hread : threeFiles.read ⟨"/p/a/two.sql"⟩ = .ok "select (" := by decide +kernel
    obtain ⟨e, hsource⟩ := Outcome.exists_eq_error
      (x := Generate.ofSource ⟨.postgres, .empty, .standard, ⟨"/p"⟩, some ⟨"/p/out"⟩⟩
        ⟨"/p/a/two.sql"⟩ (ModuleName.ofPath ⟨"/p/a/two.sql"⟩ ⟨"/p"⟩) "select (")
      (Option.isNone_iff_eq_none.1 (by decide +kernel))
    have hrefused := Generate.run_processFile_refused (t := threeFiles) hread hsource
    exact (huntouched e (congrArg (·.1.result) hrefused)).trans (by decide +kernel)

end Program

end TypedSql
