import TypedSql.Files.Tree
import TypedSql.Generate
import TypedSql.Proofs.Path.Components

namespace TypedSql.ModuleName

open TypedSql.Path

/-! # The declarations of different files

Next to its file every declaration has a place of its own. Below an output directory the place is
told by the named steps of the file, so two files that differ in other steps only, or of which one
lies below the root and the other does not, can share a declaration.
-/

/-- The named steps of a file below the root. -/
def namedSteps (file root : Path) : List String :=
  (file.componentsBelow root).filterMap Component.name?

/-- The declaration of a file in a run. -/
def declarationOf (root : Path) (outDir : Option Path) (file : Path) : Path :=
  declarationPath file (ofPath file root) outDir

/-- Two paths that do not take the same steps. -/
def Differ (a b : Path) : Prop := a.components ≠ b.components

instance (a b : Path) : Decidable (Differ a b) :=
  inferInstanceAs (Decidable (a.components ≠ b.components))

/-- A file that is reached from the root by names only. -/
def LiesBelow (root file : Path) : Prop :=
  ∃ names : List String, file.components = root.components ++ names.map .name

theorem isEnding : IsEnding ".d.ts" := ⟨by decide, by decide⟩

theorem name?_eq_some {c : Component} {text : String} (h : c.name? = some text) :
    c = .name text := by
  cases c with
  | name _ => exact congrArg _ (Option.some.inj h)
  | root => cases h
  | current => cases h
  | parent => cases h

theorem isName_of_mem_namedSteps {file root : Path} {text : String}
    (h : text ∈ namedSteps file root) : IsName text := by
  obtain ⟨c, hc, hname⟩ := List.mem_filterMap.1 h
  rw [name?_eq_some hname] at hc
  exact isName_of_mem_components (mem_components_of_mem_componentsBelow hc)

/-- Below an output directory a declaration is the directory continued by the named steps of the
file, with an ending. -/
theorem declarationOf_outDir (root dir file : Path) :
    declarationOf root (some dir) file = (dir.join ⟨ofPath file root⟩).append ".d.ts" :=
  join_append dir (head?_names fun _ => isName_of_mem_namedSteps) (by decide)

theorem components_join_ofPath (root dir file : Path) :
    (dir.join ⟨ofPath file root⟩).components =
      dir.components ++ (namedSteps file root).map .name :=
  components_join_names dir fun _ => isName_of_mem_namedSteps

theorem components_declarationOf_iff (root dir a b : Path) :
    (declarationOf root (some dir) a).components = (declarationOf root (some dir) b).components ↔
      namedSteps a root = namedSteps b root := by
  constructor
  · intro h
    rw [declarationOf_outDir, declarationOf_outDir] at h
    have hsteps := components_eq_of_append isEnding h
    rw [components_join_ofPath, components_join_ofPath, List.append_cancel_left_eq] at hsteps
    have hnames := congrArg (List.filterMap Component.name?) hsteps
    simpa [List.filterMap_map, Function.comp_def, Component.name?] using hnames
  · intro h
    have hmodule : ofPath a root = ofPath b root := by
      unfold namedSteps at h
      rw [ofPath, ofPath, h]
    rw [declarationOf_outDir, declarationOf_outDir, hmodule]

theorem namedSteps_of_liesBelow {root file : Path} {names : List String}
    (h : file.components = root.components ++ names.map .name) : namedSteps file root = names := by
  rw [namedSteps, componentsBelow, h, afterPrefix?_append, Option.getD_some]
  simp [List.filterMap_map, Function.comp_def, Component.name?]

/-- Of files that are pairwise different the declarations next to them are. Those below an output
directory are exactly if no two of the files have the same named steps below the root, as is the
case where all of them lie below the root. -/
theorem declarations_differ_iff (root : Path) (files : List Path) (hfiles : files.Pairwise Differ) :
    (files.map (declarationOf root none)).Pairwise Differ ∧
      (∀ dir, (files.map (declarationOf root (some dir))).Pairwise Differ ↔
        files.Pairwise fun a b => namedSteps a root ≠ namedSteps b root) ∧
      ((∀ file ∈ files, LiesBelow root file) →
        files.Pairwise fun a b => namedSteps a root ≠ namedSteps b root) := by
  refine ⟨?_, fun dir => ?_, fun hbelow => ?_⟩
  · refine List.pairwise_map.2 (hfiles.imp fun {a b} hab h => hab ?_)
    exact components_eq_of_append isEnding h
  · rw [List.pairwise_map]
    exact List.Pairwise.iff fun a b => not_congr (components_declarationOf_iff root dir a b)
  · refine hfiles.imp_of_mem fun {a b} ha hb hab h => hab ?_
    obtain ⟨names, hnames⟩ := hbelow a ha
    obtain ⟨names', hnames'⟩ := hbelow b hb
    rw [namedSteps_of_liesBelow hnames, namedSteps_of_liesBelow hnames'] at h
    rw [hnames, hnames', h]

/-- Files below the root whose paths are written in different ways have declarations of their
own. -/
theorem declarations_differ_below :
    let files : List Path := [⟨"/p/q.sql"⟩, ⟨"/p//db/q.sql"⟩, ⟨"/p/./db/all.sql"⟩]
    files.Pairwise Differ ∧ (∀ file ∈ files, LiesBelow ⟨"/p/."⟩ file) ∧
      (files.map (declarationOf ⟨"/p/."⟩ none)).Pairwise Differ ∧
      (files.map (declarationOf ⟨"/p/."⟩ (some ⟨"out/"⟩))).Pairwise Differ := by
  intro files
  have hfiles : files.Pairwise Differ := by decide
  have hbelow : ∀ file ∈ files, LiesBelow ⟨"/p/."⟩ file := by
    intro file hfile
    simp only [files, List.mem_cons, List.not_mem_nil, or_false] at hfile
    rcases hfile with rfl | rfl | rfl
    · exact ⟨["q.sql"], by decide⟩
    · exact ⟨["db", "q.sql"], by decide⟩
    · exact ⟨["db", "all.sql"], by decide⟩
  obtain ⟨hnext, hdir, hnames⟩ := declarations_differ_iff ⟨"/p/."⟩ files hfiles
  exact ⟨hfiles, hbelow, hnext, (hdir ⟨"out/"⟩).2 (hnames hbelow)⟩

/-- Two files of the same name, one below the root and one in a directory beside it. -/
def twoFiles : FileTree :=
  (FileTree.empty.putWithDirectories ["p", "a", "q.sql"] (.file "select :x")).putWithDirectories
    ["a", "q.sql"] (.file "select :y")

/-- A file below the root and one that is reached by a step upwards share a declaration: both are
told to be written, and there is one. -/
theorem declarations_shared :
    let files : List Path := [⟨"/p/../a/q.sql"⟩, ⟨"/p/a/q.sql"⟩]
    let settings : Generate.Settings :=
      ⟨.postgres, .empty, .standard, ⟨"/p"⟩, some ⟨"/p/out"⟩⟩
    let run := StateT.run (Generate.processFiles settings files : StateM FileTree _) twoFiles
    [⟨"/p/../a"⟩, ⟨"/p/a"⟩].flatMap twoFiles.filesBelow = files ∧ files.all Discovery.isSql ∧
      files.Pairwise Differ ∧
      ¬ (files.map (declarationOf ⟨"/p"⟩ (some ⟨"/p/out"⟩))).Pairwise Differ ∧
      run.1.map Generate.Outcome.isWritten = [true, true] ∧
      (run.2.namesBelow ["p", "out"]) = [["a", "q.sql.d.ts"]] := by
  decide +kernel

end TypedSql.ModuleName
