import TypedSql.Proofs.Discovery.Found
import TypedSql.Proofs.Generate.Writing
import TypedSql.Proofs.ModuleName.Declarations

namespace TypedSql.Generate

open TypedSql.Path FileTree ModuleName

/-! # Files are independent

A run takes its files one after another on one tree. As long as no declaration leads to the place of
another one or below it, what happened to the files before makes no difference to a file: its source
reads as before, its declaration is written or refused as before, and what is found about it is the
same. So a run does for every file what a run over that file alone does.

A directory that a run makes lets later paths step up out of it. A path that does so leads elsewhere
than before, so the output directory is to step up only out of directories that are there.
-/

/-! ## Declarations -/

/-- The path of the declaration of a file. -/
def Settings.declaration (s : Settings) (file : Path) : Path := declarationOf s.root s.outDir file

/-- The text of the declaration of a file, if the file can be read and analyzed. -/
def declared (s : Settings) (t : FileTree) (file : Path) : Option String :=
  match t.read file with
  | .error _ => none
  | .ok source =>
      match ofSource s file (ofPath file s.root) source with
      | .error _ => none
      | .ok (text, _) => some text

section

variable {s : Settings} {t : FileTree} {file dir : Path}

/-- A declaration is a path with an ending. -/
theorem exists_declaration_eq (s : Settings) (file : Path) :
    ∃ p : Path, s.declaration file = p.append ".d.ts" ∧
      (p = file ∨ ∃ dir, s.outDir = some dir ∧ p = dir.join ⟨ofPath file s.root⟩) := by
  cases hdir : s.outDir with
  | none =>
      refine ⟨file, ?_, .inl rfl⟩
      rw [Settings.declaration, hdir]
      rfl
  | some dir =>
      refine ⟨dir.join ⟨ofPath file s.root⟩, ?_, .inr ⟨dir, rfl, rfl⟩⟩
      rw [Settings.declaration, hdir, declarationOf_outDir]

/-- The path of a declaration is the path of a file, with its ending. -/
theorem exists_namesFile_declaration (s : Settings) (file : Path) :
    ∃ front last, (s.declaration file).NamesFile front (last ++ ".d.ts".toList) := by
  obtain ⟨p, hp, -⟩ := exists_declaration_eq s file
  obtain ⟨-, front, last, -, hnames⟩ := exists_namesFile_append isEnding p
  rw [hp]
  exact ⟨front, last, hnames⟩

/-- With an ending a path steps up where it did without. -/
theorem leadsTo_append {p : Path} (h : t.LeadsTo p) : t.LeadsTo (p.append ".d.ts") := by
  obtain ⟨habsolute, front, last, hsegments, hnames⟩ := exists_namesFile_append isEnding p
  have hup := h.up
  rw [hsegments, upFromDirectories_append] at hup
  constructor
  rw [habsolute, hnames.segments_eq, upFromDirectories_append]
  refine ⟨hup.1, upFromDirectories_of_down fun step hstep => ?_⟩
  rw [List.mem_singleton.1 hstep]
  exact hnames.not_parent

/-- The name of a module leads down only. -/
theorem leadsTo_join (h : t.LeadsTo dir) (file root : Path) :
    t.LeadsTo (dir.join ⟨ofPath file root⟩) := by
  have hnames : ∀ name ∈ namedSteps file root, IsName name := fun _ => isName_of_mem_namedSteps
  have hrelative : (⟨ofPath file root⟩ : Path).isAbsolute = false := by
    simp only [isAbsolute, decide_eq_false_iff_not]
    exact head?_names hnames
  have hdown : ∀ step ∈ (⟨ofPath file root⟩ : Path).segments, step ≠ ['.', '.'] := by
    intro step hstep
    rw [segments_of_relative hrelative] at hstep
    by_cases hempty : namedSteps file root = []
    · have htext : ofPath file root = "" := by
        unfold namedSteps at hempty
        rw [ofPath, hempty]
        rfl
      rw [htext] at hstep
      rw [List.mem_singleton.1 hstep]
      exact (List.cons_ne_nil '.' ['.']).symm
    · have hcut : cut (ofPath file root).toList = (namedSteps file root).map String.toList :=
        cut_names hnames hempty
      rw [hcut] at hstep
      obtain ⟨name, hname, rfl⟩ := List.mem_map.1 hstep
      exact (hnames name hname).toList_ne_parent
  have hup := h.up
  obtain ⟨habsolute, hjoin | ⟨front, hfront, hjoin⟩⟩ := segments_join dir hrelative
  · constructor
    rw [habsolute, hjoin, upFromDirectories_append]
    exact ⟨hup, upFromDirectories_of_down hdown⟩
  · constructor
    rw [hfront, upFromDirectories_append] at hup
    rw [habsolute, hjoin, upFromDirectories_append]
    exact ⟨hup.1, upFromDirectories_of_down hdown⟩

/-- Next to a file that is there, or below a directory that steps up only out of directories, the
declaration steps up out of directories only. -/
theorem leadsTo_declaration {n : List String} (hout : ∀ dir, s.outDir = some dir → t.LeadsTo dir)
    (hfile : t.locate file = .ok n) : t.LeadsTo (s.declaration file) := by
  obtain ⟨p, hp, rfl | ⟨dir, hdir, rfl⟩⟩ := exists_declaration_eq s file
  · rw [hp]
    exact leadsTo_append (leadsTo_of_locate hfile)
  · rw [hp]
    exact leadsTo_append (leadsTo_join (hout dir hdir) file s.root)

/-- No declaration has the place of a SQL file. -/
theorem place_ne_declaration (ht : t.WellFormed) {f g : Path} (hsql : Discovery.isSql f = true)
    {node : FileNode} (hf : t.at? f = some node) (hnode : node ≠ .directory) :
    t.place f ≠ t.place (s.declaration g) := by
  obtain ⟨front, last, hfile⟩ := ht.exists_namesFile hf hnode
  obtain ⟨front', last', hdeclaration⟩ := exists_namesFile_declaration s g
  have hextension : f.extension = some "sql" := beq_iff_eq.1 hsql
  obtain ⟨before, hlast⟩ := hfile.suffix_of_extension hextension
  intro heq
  rw [hfile.place_eq, hdeclaration.place_eq] at heq
  have hnames := (List.append_inj' heq rfl).2
  have hchars : last = last' ++ ".d.ts".toList := by
    have htexts := congrArg String.toList (List.cons.inj hnames).1
    rwa [String.toList_ofList, String.toList_ofList] at htexts
  -- One name ends in an `l`, the other in an `s`.
  have hends := congrArg List.getLast? (hlast.trans hchars)
  simp at hends

end

/-! ## One file -/

section

variable {s : Settings} {t t' : FileTree} {file : Path} {ps : List Path}

/-- What taking a file does to a tree, where the declaration is the one that the file has in the
first tree. -/
structure Took (s : Settings) (t : FileTree) (file : Path) (t' : FileTree)
    (taken : Outcome × FileTree) : Prop where
  grown : Grown [s.declaration file] t' taken.2
  written : taken.1.isWritten = true → ∃ text, declared s t file = some text ∧
    taken.2.at? (s.declaration file) = some (.file text)
  untouched : ∀ e, taken.1.result = .error (.analysis e) → taken.2 = t'

theorem run_read (file : Path) (t : FileTree) :
    run (FileAccess.read file) t = (t.read file, t) := rfl

/-- A file that cannot be read is a failure and leaves the tree as it is. -/
theorem run_processFile_unread {e : FileError} (h : t.read file = .error e) :
    run (processFile s file) t =
      (⟨ofPath file s.root, .error (.file ⟨.read, file, e⟩)⟩, t) := by
  unfold processFile
  rw [run_bind, run_read, h]
  rfl

/-- A file that cannot be analyzed is a failure and leaves the tree as it is. -/
theorem run_processFile_refused {source : String} {e : AnalysisError}
    (h : t.read file = .ok source)
    (hsource : ofSource s file (ofPath file s.root) source = .error e) :
    run (processFile s file) t = (⟨ofPath file s.root, .error (.analysis e)⟩, t) := by
  unfold processFile
  rw [run_bind, run_read, h]
  simp only [hsource]
  rfl

/-- A file that can be analyzed has its declaration written. -/
theorem run_processFile_accepted {source text : String} {findings : List Diagnostic}
    (h : t.read file = .ok source)
    (hsource : ofSource s file (ofPath file s.root) source = .ok (text, findings)) :
    run (processFile s file) t =
      (⟨ofPath file s.root, ((run (writeDeclaration (s.declaration file) text) t).1.mapError
          Failure.file).map fun _ => findings⟩,
        (run (writeDeclaration (s.declaration file) text) t).2) := by
  unfold processFile
  rw [run_bind, run_read, h]
  simp only [hsource]
  rw [run_bind]
  have hpath : declarationPath file (ofPath file s.root) s.outDir = s.declaration file := rfl
  rw [hpath]
  obtain ⟨result, t'⟩ := run (writeDeclaration (s.declaration file) text) t
  cases result with
  | error failure => rfl
  | ok _ => rfl

/-- In a tree that has grown away from a file, taking the file comes to the same as before. -/
theorem took_processFile (ht : t.WellFormed) (hgrown : Grown ps t t') {node : FileNode}
    (hfile : t.at? file = some node) (hsource : ∀ p ∈ ps, t.place file ≠ t.place p)
    (hleads : t.LeadsTo (s.declaration file)) (hapart : ∀ p ∈ ps, t.Apart (s.declaration file) p) :
    (run (processFile s file) t').1 = (run (processFile s file) t).1 ∧
      Took s t file t' (run (processFile s file) t') := by
  obtain ⟨front, last, hnames⟩ := exists_namesFile_declaration s file
  have hread := hgrown.read_eq hfile hsource
  -- Analysis is told by the source alone, so the trees come to the same case.
  cases hcontent : t.read file with
  | error e =>
      rw [hcontent] at hread
      rw [run_processFile_unread hread, run_processFile_unread hcontent]
      exact ⟨rfl, .refl _ t', Bool.noConfusion, fun e h => Failure.noConfusion (Except.error.inj h)⟩
  | ok source =>
      rw [hcontent] at hread
      cases hanalyzed : ofSource s file (ofPath file s.root) source with
      | error e =>
          rw [run_processFile_refused hread hanalyzed, run_processFile_refused hcontent hanalyzed]
          exact ⟨rfl, .refl _ t', nofun, fun _ _ => rfl⟩
      | ok parts =>
          obtain ⟨text, findings⟩ := parts
          have halike := writeDeclaration_alike hnames ht hgrown hleads hapart text
          obtain ⟨hmore, hdone⟩ := grown_writeDeclaration hnames ht hgrown hleads text
          have htext : declared s t file = some text := by
            unfold declared
            rw [hcontent]
            simp only [hanalyzed]
          rw [run_processFile_accepted hread hanalyzed,
            run_processFile_accepted hcontent hanalyzed, halike]
          rw [halike] at hdone
          cases hwritten : (run (writeDeclaration (s.declaration file) text) t).1 with
          | error failure =>
              dsimp only
              exact ⟨rfl, hmore, Bool.noConfusion,
                fun e h => Failure.noConfusion (Except.error.inj h)⟩
          | ok _ =>
              dsimp only
              refine ⟨rfl, hmore, fun _ => ⟨text, htext, hdone hwritten⟩, fun e h => ?_⟩
              cases h

end

/-! ## A run -/

/-- Files in a tree of which each is there, apart from all declarations, and whose declarations are
apart from each other. -/
structure Ready (s : Settings) (t : FileTree) (files : List Path) : Prop where
  wellFormed : t.WellFormed
  present : ∀ f ∈ files, ∃ node, t.at? f = some node
  source : ∀ f ∈ files, ∀ g, t.place f ≠ t.place (s.declaration g)
  leads : ∀ f ∈ files, t.LeadsTo (s.declaration f)
  apart : files.Pairwise fun f g => t.Apart (s.declaration f) (s.declaration g)

section

variable {s : Settings} {t t' : FileTree} {file : Path} {before files after : List Path}

/-- A tree that is ready for files is ready for some of them. -/
theorem Ready.sublist (h : Ready s t files) (hsub : before.Sublist files) : Ready s t before :=
  ⟨h.wellFormed, fun f hf => h.present f (hsub.subset hf), fun f hf => h.source f (hsub.subset hf),
    fun f hf => h.leads f (hsub.subset hf), h.apart.sublist hsub⟩

/-- A file is taken as if the files before it had not been. -/
theorem Ready.took (h : Ready s t (before ++ file :: after))
    (hgrown : Grown (before.map s.declaration) t t') :
    (run (processFile s file) t').1 = (run (processFile s file) t).1 ∧
      Took s t file t' (run (processFile s file) t') := by
  have hmem : file ∈ before ++ file :: after := by simp
  obtain ⟨node, hfile⟩ := h.present file hmem
  refine took_processFile h.wellFormed hgrown hfile (fun p hp => ?_) (h.leads file hmem)
    fun p hp => ?_
  · obtain ⟨f, -, rfl⟩ := List.mem_map.1 hp
    exact h.source file hmem f
  · obtain ⟨f, hf, rfl⟩ := List.mem_map.1 hp
    exact ((List.pairwise_append.1 h.apart).2.2 f hf file List.mem_cons_self).symm

/-- In a tree that has grown by the declarations of the files before, the files come to what they
come to one by one in the first tree. -/
theorem Ready.run_processFiles (h : Ready s t (before ++ files))
    (hgrown : Grown (before.map s.declaration) t t') :
    (run (processFiles s files) t').1 = files.map (fun f => (run (processFile s f) t).1) ∧
      Grown (files.map s.declaration) t' (run (processFiles s files) t').2 := by
  induction files generalizing before t' with
  | nil => exact ⟨rfl, .refl _ t'⟩
  | cons file files ih =>
      obtain ⟨halike, htook⟩ := h.took hgrown
      have hnext : Grown ((before ++ [file]).map s.declaration) t
          (run (processFile s file) t').2 := by
        rw [List.map_append]
        exact hgrown.trans htook.grown
      have hrest : Ready s t ((before ++ [file]) ++ files) := by
        rwa [List.append_assoc, List.singleton_append]
      -- For the rest of the files this one is among those before.
      obtain ⟨houtcomes, hmore⟩ := ih hrest hnext
      unfold processFiles at houtcomes hmore ⊢
      rw [run_mapM_cons, List.map_cons, List.map_cons, halike, houtcomes]
      exact ⟨rfl, htook.grown.trans hmore⟩

/-- A run over one file takes it. -/
theorem run_processFiles_one (s : Settings) (file : Path) (t : FileTree) :
    run (processFiles s [file]) t =
      ([(run (processFile s file) t).1], (run (processFile s file) t).2) :=
  run_mapM_cons (processFile s) file [] t

/-- At the end of a run every declaration is as it was when its file had been taken, and as it was
before where the analysis of the file failed. -/
theorem Ready.at?_run (h : Ready s t (before ++ file :: after)) :
    ((run (processFile s file) t).1.isWritten = true → ∃ text, declared s t file = some text ∧
        (run (processFiles s (before ++ file :: after)) t).2.at? (s.declaration file) =
          some (.file text)) ∧
      ∀ e, (run (processFile s file) t).1.result = .error (.analysis e) →
        (run (processFiles s (before ++ file :: after)) t).2.at? (s.declaration file) =
          t.at? (s.declaration file) := by
  have hmem : file ∈ before ++ file :: after := by simp
  have happend : before ++ file :: after = (before ++ [file]) ++ after := by simp
  have hearlier := (List.pairwise_append.1 h.apart).2.2
  have hlater := (List.pairwise_cons.1 (List.pairwise_append.1 h.apart).2.1).1
  -- The tree before the file, the tree after it, and the tree in the end.
  have hready : Ready s t ([] ++ before) := h.sublist (List.sublist_append_left before _)
  have hbefore := (hready.run_processFiles (.refl _ t)).2
  have hrun : (run (processFiles s (before ++ file :: after)) t).2 =
      (run (processFiles s after)
        (run (processFile s file) (run (processFiles s before) t).2).2).2 := by
    unfold processFiles
    rw [run_mapM_append, run_mapM_cons]
  rw [hrun]
  generalize (run (processFiles s before) t).2 = t₁ at hbefore
  obtain ⟨halike, htook⟩ := h.took hbefore
  rw [← halike]
  have hafter : Ready s t ((before ++ [file]) ++ after) := happend ▸ h
  have hthen : Grown ((before ++ [file]).map s.declaration) t (run (processFile s file) t₁).2 := by
    rw [List.map_append]
    exact hbefore.trans htook.grown
  have hmore := (hafter.run_processFiles hthen).2
  constructor
  · intro hwritten
    obtain ⟨text, htext, hat⟩ := htook.written hwritten
    refine ⟨text, htext, hmore.at?_eq_of_some hat fun p hp => ?_⟩
    obtain ⟨f, hf, rfl⟩ := List.mem_map.1 hp
    rw [hthen.place_eq, hthen.place_eq]
    exact (hlater f hf).place_ne
  · intro e hfailed
    rw [htook.untouched e hfailed] at hmore ⊢
    refine (hbefore.trans hmore).at?_eq h.wellFormed (h.leads file hmem) fun p hp => ?_
    rcases List.mem_append.1 hp with hp | hp
    · obtain ⟨f, hf, rfl⟩ := List.mem_map.1 hp
      exact (hearlier f hf file List.mem_cons_self).2
    · obtain ⟨f, hf, rfl⟩ := List.mem_map.1 hp
      exact (hlater f hf).1

/-- What happens to the files of a run is what happens to each of them in the tree as it was. -/
theorem Ready.outcomes (h : Ready s t files) :
    (run (processFiles s files) t).1 = files.map (fun f => (run (processFile s f) t).1) ∧
      Grown (files.map s.declaration) t (run (processFiles s files) t).2 := by
  have hnone : Ready s t ([] ++ files) := h
  exact hnone.run_processFiles (.refl _ t)

/-- The declaration of a file that succeeds holds after the run what it holds after the file has
been taken alone, and where the analysis of a file fails there is what there was. -/
theorem Ready.at?_alike (h : Ready s t files) (hfile : file ∈ files) :
    ((run (processFile s file) t).1.isWritten = true → ∃ text,
        (run (processFiles s files) t).2.at? (s.declaration file) = some (.file text) ∧
          (run (processFile s file) t).2.at? (s.declaration file) = some (.file text)) ∧
      ∀ e, (run (processFile s file) t).1.result = .error (.analysis e) →
        (run (processFiles s files) t).2.at? (s.declaration file) =
          t.at? (s.declaration file) := by
  obtain ⟨before, after, hsplit⟩ := List.append_of_mem hfile
  have hwhole : Ready s t (before ++ file :: after) := hsplit ▸ h
  obtain ⟨hwritten, huntouched⟩ := hwhole.at?_run
  rw [← hsplit] at hwritten huntouched
  have hsingle : Ready s t ([] ++ [file]) := h.sublist (List.singleton_sublist.2 hfile)
  obtain ⟨-, htook⟩ := hsingle.took (.refl _ t)
  -- Both trees hold the text that the source of the file decides.
  refine ⟨fun hdone => ?_, huntouched⟩
  obtain ⟨text, htext, hall⟩ := hwritten hdone
  obtain ⟨text', htext', hone⟩ := htook.written hdone
  obtain rfl : text = text' := Option.some.inj (htext.symm.trans htext')
  exact ⟨text, hall, hone⟩

end

/-- The files that are found in a tree are ready to be taken, if their declarations are apart and
the output directory steps up only out of directories that are there. -/
theorem ready_sqlFiles {s : Settings} {t : FileTree} {roots : List Path} (ht : t.WellFormed)
    (hout : ∀ dir, s.outDir = some dir → t.LeadsTo dir)
    (hapart : (run (Discovery.sqlFiles roots) t).1.Pairwise fun f g =>
      t.Apart (s.declaration f) (s.declaration g)) :
    Ready s t (run (Discovery.sqlFiles roots) t).1 := by
  obtain ⟨-, hfound⟩ := Discovery.found_sqlFiles ht roots
  refine ⟨ht, fun f hf => ?_, fun f hf g => ?_, fun f hf => ?_, hapart⟩
  · obtain ⟨-, node, hat, -⟩ := hfound f hf
    exact ⟨node, hat⟩
  · obtain ⟨hsql, node, hat, hnode⟩ := hfound f hf
    exact place_ne_declaration ht hsql hat hnode
  · obtain ⟨-, node, hat, -⟩ := hfound f hf
    exact leadsTo_declaration hout (locate_of_at? hat).1

end TypedSql.Generate
