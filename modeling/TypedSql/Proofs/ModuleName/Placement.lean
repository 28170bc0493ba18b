import TypedSql.Proofs.Files.Named
import TypedSql.Proofs.ModuleName.Declarations

namespace TypedSql.ModuleName

open TypedSql.Path

/-! # Where a declaration is placed

The name of a module is made of names of files and directories, so below an output directory the
declaration is reached by names only and never lies outside. For a file below the root the name
leads from the root to the file, and the declaration that is placed below the root is the one next
to the file.
-/

/-! ## Steps of a declaration -/

/-- The steps that are taken when names get the ending of declarations: the last of them has the
ending, and without names there is the ending alone. -/
def endedSteps (names : List String) : List String :=
  names.dropLast ++ [names.getLast?.getD "" ++ ".d.ts"]

theorem endedSteps_concat (names : List String) (last : String) :
    endedSteps (names ++ [last]) = names ++ [last ++ ".d.ts"] := by
  simp [endedSteps]

theorem endedSteps_ne_nil (names : List String) : endedSteps names ≠ [] := by
  simp [endedSteps]

theorem intercalate_concat_append (names : List String) (last tail : String) :
    "/".intercalate (names ++ [last]) ++ tail = "/".intercalate (names ++ [last ++ tail]) := by
  induction names with
  | nil => simp
  | cons name names ih =>
      cases names with
      | nil => simp [String.append_assoc]
      | cons next names =>
          simp only [List.cons_append, String.intercalate_cons_cons, String.append_assoc] at ih ⊢
          rw [ih]

theorem intercalate_endedSteps (names : List String) :
    "/".intercalate (endedSteps names) = "/".intercalate names ++ ".d.ts" := by
  rcases List.eq_nil_or_concat names with rfl | ⟨front, last, rfl⟩
  · rfl
  · rw [List.concat_eq_append, endedSteps_concat, intercalate_concat_append]

theorem isName_of_mem_endedSteps {names : List String} (h : ∀ n ∈ names, IsName n) :
    ∀ n ∈ endedSteps names, IsName n := by
  rcases List.eq_nil_or_concat names with rfl | ⟨front, last, rfl⟩
  · have hending : IsName ("" ++ ".d.ts") := isEnding.isName (by simp)
    simpa [endedSteps] using hending
  · rw [List.concat_eq_append] at h ⊢
    have hlast : IsName (last ++ ".d.ts") := isEnding.isName (h last (by simp)).slash_not_mem
    rw [endedSteps_concat]
    intro n hn
    rcases List.mem_append.1 hn with hn | hn
    · exact h n (List.mem_append_left _ hn)
    · rw [List.mem_singleton.1 hn]
      exact hlast

/-- Below an output directory a declaration takes the named steps of its file, the last one with the
ending. -/
theorem components_declarationOf (root dir file : Path) :
    (declarationOf root (some dir) file).components =
      dir.components ++ (endedSteps (namedSteps file root)).map .name := by
  have htext : declarationOf root (some dir) file =
      dir.join ⟨"/".intercalate (endedSteps (namedSteps file root))⟩ := by
    rw [intercalate_endedSteps]
    rfl
  have hnames : ∀ n ∈ namedSteps file root, IsName n := fun _ => isName_of_mem_namedSteps
  rw [htext, components_join_names dir (isName_of_mem_endedSteps hnames)]

/-! ## Inside the output directory -/

/-- The texts between the slashes of a module name. An empty name has none. -/
def partsOf (module : String) : List String :=
  if module = "" then [] else (cut module.toList).map String.ofList

theorem partsOf_names {names : List String} (h : ∀ n ∈ names, IsName n) :
    partsOf ("/".intercalate names) = names := by
  by_cases hne : names = []
  · rw [hne]
    rfl
  · have hempty : "/".intercalate names ≠ "" := by
      intro e
      have hsteps := stepsOf_names h
      rw [e] at hsteps
      exact hne (List.map_eq_nil_iff.1 (hsteps.symm.trans stepsOf_nil))
    rw [partsOf, if_neg hempty, cut_names h hne, List.map_map]
    simp [Function.comp_def]

/-- Whatever the file and the root are, the declaration is reached from the output directory by
names, one or more, and the name of the module neither starts nor ends with a slash and has nothing
but names between its slashes. -/
theorem declaration_inside (file root dir : Path) :
    (∃ names : List String, names ≠ [] ∧ (∀ n ∈ names, IsName n) ∧
      (declarationPath file (ofPath file root) (some dir)).components =
        dir.components ++ names.map .name) ∧
      (ofPath file root).toList.head? ≠ some '/' ∧ (ofPath file root).toList.getLast? ≠ some '/' ∧
      ∀ part ∈ partsOf (ofPath file root), IsName part := by
  have hnames : ∀ n ∈ namedSteps file root, IsName n := fun _ => isName_of_mem_namedSteps
  have hmodule : ofPath file root = "/".intercalate (namedSteps file root) := rfl
  refine ⟨⟨endedSteps (namedSteps file root), endedSteps_ne_nil _,
    isName_of_mem_endedSteps hnames, components_declarationOf root dir file⟩, ?_, ?_, ?_⟩
  · rw [hmodule]
    exact head?_names hnames
  · rw [hmodule]
    exact getLast?_names hnames
  · rw [hmodule, partsOf_names hnames]
    exact hnames

/-- The root has an empty name, and its declaration would be the ending alone. -/
example : declarationOf ⟨"/p"⟩ (some ⟨"/out"⟩) ⟨"/p/./"⟩ = ⟨"/out/.d.ts"⟩ := by decide

/-! ## Below the root -/

/-- A path that leads to a file ends in the name that is its last step. -/
theorem suffix_of_at? {t : FileTree} (ht : t.WellFormed) {file : Path} {node : FileNode}
    (hnode : t.at? file = some node) (hfile : node ≠ .directory) {front : List Component}
    {last : String} (h : file.components = front ++ [.name last]) :
    last.toList <:+ file.text.toList := by
  obtain ⟨segments, segment, hnames⟩ := ht.exists_namesFile hnode hfile
  have hname := hnames.fileName_eq
  rw [fileName, h, List.getLast?_concat] at hname
  have hsegment : last = String.ofList segment := Option.some.inj hname
  rw [hsegment, String.toList_ofList]
  exact hnames.suffix

/-- The name of a file below the root leads from the root to the file. -/
theorem components_join_of_liesBelow {root file : Path} (h : LiesBelow root file) :
    (root.join ⟨ofPath file root⟩).components = file.components := by
  obtain ⟨names, hnames⟩ := h
  rw [components_join_ofPath, namedSteps_of_liesBelow hnames, hnames]

/-- The name of a file below the root leads from the root to that file and to no other. The
declaration placed below the root is the one next to the file, since the path of a file ends in its
name. A path that goes on after the name, with a separator or with a dot after that, leads to no
file; the declaration next to it would lie inside of it. -/
theorem faithful_below {root file : Path} {names : List String} {last : String}
    (h : file.components = root.components ++ (names ++ [last]).map .name) :
    (root.join ⟨ofPath file root⟩).components = file.components ∧
      (∀ other, LiesBelow root other → ofPath other root = ofPath file root →
        other.components = file.components) ∧
      (∀ (t : FileTree) (node : FileNode), t.WellFormed → t.at? file = some node →
        node ≠ .directory → ∀ m,
          (declarationPath file (ofPath file root) (some root)).components =
            (declarationPath file m none).components) ∧
      ∀ m, (declarationPath file (ofPath file root) (some root)).components =
          (declarationPath file m none).components ↔ last.toList <:+ file.text.toList := by
  have hjoin := components_join_of_liesBelow ⟨_, h⟩
  have hlast : file.components = (root.components ++ names.map .name) ++ [.name last] := by
    rw [h, List.map_append, List.append_assoc]
    rfl
  -- The declaration below the root takes its steps whatever the text of the file's path is.
  have hbelow : (declarationPath file (ofPath file root) (some root)).components =
      (root.components ++ names.map .name) ++ [.name (last ++ ".d.ts")] := by
    have hsteps := components_declarationOf root root file
    rw [namedSteps_of_liesBelow h, endedSteps_concat, List.map_append,
      ← List.append_assoc] at hsteps
    exact hsteps
  have hagree : ∀ m, (declarationPath file (ofPath file root) (some root)).components =
      (declarationPath file m none).components ↔ last.toList <:+ file.text.toList := by
    intro m
    rw [hbelow, eq_comm]
    exact components_append_iff isEnding hlast
  refine ⟨hjoin, fun other hother hmodule => ?_, fun t node ht hnode hfile m => ?_, hagree⟩
  · rw [← components_join_of_liesBelow hother, hmodule, hjoin]
  · exact (hagree m).2 (suffix_of_at? ht hnode hfile hlast)

/-- The declaration of a file whose name has dots in it, with a root that ends in a dot and
separators that are repeated. -/
theorem faithful_below_dots :
    let root : Path := ⟨"/p/."⟩
    let file : Path := ⟨"/p/./db//q.v2.sql"⟩
    let t := FileTree.empty.putWithDirectories ["p", "db", "q.v2.sql"] (.file "select 1")
    file.components = root.components ++ (["db"] ++ ["q.v2.sql"]).map .name ∧
      t.WellFormed ∧ t.at? file = some (.file "select 1") ∧
      (root.join ⟨ofPath file root⟩).components = file.components ∧
      (declarationPath file (ofPath file root) (some root)).components =
        (declarationPath file "" none).components := by
  intro root file t
  have hbelow : file.components = root.components ++ (["db"] ++ ["q.v2.sql"]).map .name := by decide
  have ht : t.WellFormed := by decide +kernel
  have hnode : t.at? file = some (.file "select 1") := by decide +kernel
  obtain ⟨hjoin, -, hfile, -⟩ := faithful_below hbelow
  exact ⟨hbelow, ht, hnode, hjoin, hfile t _ ht hnode nofun ""⟩

end TypedSql.ModuleName
