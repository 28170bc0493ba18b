import Mathlib.Data.List.Forall2
import TypedSql.Proofs.Analysis.Statements
import TypedSql.Proofs.FrontMatter.Block
import TypedSql.Proofs.Placeholder.Positions

/-! # Inputs and the lines that declare them

The inputs of a statement are told by the lines of the front matter, without the list of keys and
values that is made of them: the last line that declares a placeholder decides, and a line for the
name itself comes before all lines for the name and a question mark, wherever they stand.
-/

namespace TypedSql.FrontMatter

/-! ## The line that decides -/

/-- No line declares anything under a key. -/
def NeverDeclares (key : String) (lines : List (List Char)) : Prop :=
  ∀ line ∈ lines, ∀ value, ¬ Declares line key value

/-- The last of the lines that declare something under a key declares this value. -/
inductive LastDeclares (key value : String) : List (List Char) → Prop
  | intro {line : List Char} {after : List (List Char)} (before : List (List Char))
      (hline : Declares line key value) (hafter : NeverDeclares key after) :
      LastDeclares key value (before ++ line :: after)

section

variable {key value : String} {lines : List (List Char)}

theorem neverDeclares_iff :
    NeverDeclares key lines ↔ (lines.filterMap declaration?).reverse.lookup key = none := by
  simp only [NeverDeclares, declares_iff, List.lookup_eq_none_iff, List.mem_reverse,
    List.mem_filterMap, bne_iff_ne]
  constructor
  · rintro h ⟨key', value⟩ ⟨line, hline, hvalue⟩ rfl
    exact h line hline value hvalue
  · intro h line hline value hvalue
    exact h (key, value) ⟨line, hline, hvalue⟩ rfl

theorem lastDeclares_iff :
    LastDeclares key value lines ↔
      (lines.filterMap declaration?).reverse.lookup key = some value := by
  constructor
  · rintro ⟨before, hline, hafter⟩
    rw [neverDeclares_iff] at hafter
    rw [List.filterMap_append, List.filterMap_cons_some (declares_iff.1 hline),
      List.reverse_append, List.reverse_cons, List.lookup_append, List.lookup_append, hafter]
    simp
  · intro h
    obtain ⟨later, earlier, hlookup, hlater⟩ := List.lookup_eq_some_iff.1 h
    have hentries : lines.filterMap declaration? =
        earlier.reverse ++ (key, value) :: later.reverse := by
      simpa using congrArg List.reverse hlookup
    -- The entry that is found was made by a line, and those after it by the lines after that.
    obtain ⟨before, rest, rfl, -, hrest⟩ := List.filterMap_eq_append_iff.1 hentries
    obtain ⟨skipped, line, after, rfl, -, hline, hafter⟩ := List.filterMap_eq_cons_iff.1 hrest
    have hnever : NeverDeclares key after := by
      rw [neverDeclares_iff, hafter, List.reverse_reverse, List.lookup_eq_none_iff]
      intro entry hentry
      simpa using hlater entry hentry
    rw [← List.append_assoc]
    exact .intro (before ++ skipped) (declares_iff.2 hline) hnever

end

end TypedSql.FrontMatter

namespace TypedSql.Placeholder

open FrontMatter Text

/-! ## The type that a value gives -/

/-- A value that ends in the array mark is the type of an array of what stands before that one mark
and the blanks before it. Any other value is a type as it stands. -/
inductive TypedAs : List Char → String → Bool → Prop
  | array {element blanks : List Char} (hblanks : ∀ c ∈ blanks, isBlank c = true)
      (hend : ∀ c ∈ element.getLast?, isBlank c = false) :
      TypedAs (element ++ blanks ++ ['[', ']']) (String.ofList element) true
  | single {value : List Char} (h : ∀ element, value ≠ element ++ ['[', ']']) :
      TypedAs value (String.ofList value) false

theorem declaredInput_iff {declared name : String} {nullable : Bool} {input : InputParameter} :
    declaredInput name declared nullable = input ↔
      ∃ type array, TypedAs (trim declared.toList) type array ∧
        input = ⟨name, type, array, nullable⟩ := by
  unfold declaredInput
  dsimp only
  generalize trim declared.toList = value
  constructor
  · rintro rfl
    split
    · next element helement =>
        obtain ⟨s, rfl, hs⟩ := elementType?_iff.1 helement
        obtain ⟨⟨blanks, hblanks, rfl⟩, hend⟩ := trimRight_eq_iff.1 hs.symm
        exact ⟨_, _, .array hblanks hend, rfl⟩
    · next hnone =>
        refine ⟨_, _, .single fun s hs => ?_, rfl⟩
        rw [elementType?_iff.2 ⟨s, hs, rfl⟩] at hnone
        cases hnone
  · rintro ⟨type, array, ⟨hblanks, hend⟩ | hsingle, rfl⟩
    · rw [elementType?_iff.2 ⟨_, rfl, (trimRight_eq_iff.2 ⟨⟨_, hblanks, rfl⟩, hend⟩).symm⟩]
    · have hnone : elementType? value = none := by
        rw [Option.eq_none_iff_forall_ne_some]
        intro element helement
        obtain ⟨s, hs, -⟩ := elementType?_iff.1 helement
        exact hsingle s hs
      rw [hnone]

/-! ## The input of a placeholder -/

/-- What the lines of a block make of a placeholder. -/
inductive InputOf (block : List (List Char)) (name : String) : InputParameter → Prop
  | required {value type : String} {array : Bool} (hvalue : LastDeclares name value block)
      (htype : TypedAs (trim value.toList) type array) :
      InputOf block name ⟨name, type, array, false⟩
  | nullable {value type : String} {array : Bool} (hnever : NeverDeclares name block)
      (hvalue : LastDeclares (name ++ "?") value block)
      (htype : TypedAs (trim value.toList) type array) :
      InputOf block name ⟨name, type, array, true⟩
  | undeclared (hnever : NeverDeclares name block)
      (hnullable : NeverDeclares (name ++ "?") block) :
      InputOf block name ⟨name, "any", false, false⟩

theorem inputOf_iff {block : List (List Char)} {name : String} {input : InputParameter} :
    InputOf block name input ↔
      describe (Keyed.ofList (block.filterMap declaration?)) name = input := by
  unfold describe
  rw [Keyed.get?_ofList, Keyed.get?_ofList]
  constructor
  · rintro (⟨hvalue, htype⟩ | ⟨hnever, hvalue, htype⟩ | ⟨hnever, hnullable⟩)
    · rw [lastDeclares_iff.1 hvalue]
      exact declaredInput_iff.2 ⟨_, _, htype, rfl⟩
    · rw [neverDeclares_iff.1 hnever, lastDeclares_iff.1 hvalue]
      exact declaredInput_iff.2 ⟨_, _, htype, rfl⟩
    · rw [neverDeclares_iff.1 hnever, neverDeclares_iff.1 hnullable]
      rfl
  · intro h
    split at h
    · next value hvalue =>
        obtain ⟨type, array, htype, rfl⟩ := declaredInput_iff.1 h
        exact .required (lastDeclares_iff.2 hvalue) htype
    · next hnever =>
        split at h
        · next value hvalue =>
            obtain ⟨type, array, htype, rfl⟩ := declaredInput_iff.1 h
            exact .nullable (neverDeclares_iff.2 hnever) (lastDeclares_iff.2 hvalue) htype
        · next hnullable =>
            subst h
            exact .undeclared (neverDeclares_iff.2 hnever) (neverDeclares_iff.2 hnullable)

theorem forall₂_inputOf_iff {block : List (List Char)} {names : List String}
    {inputs : List InputParameter} :
    List.Forall₂ (InputOf block) names inputs ↔
      names.map (describe (Keyed.ofList (block.filterMap declaration?))) = inputs := by
  rw [← List.forall₂_eq_eq_eq]
  simp only [List.forall₂_map_left_iff, ← inputOf_iff]

end TypedSql.Placeholder

namespace TypedSql.Analysis

open FrontMatter Placeholder

/-- The inputs of a file with a closed front matter are what the lines between its delimiters make
of the placeholders, one for each distinct placeholder in the order of first occurrence. -/
theorem analyze_inputs {d : Dialect} {schema : Schema} {source : String} {file : Option Path}
    {block : List (List Char)} {body : List Char} {c : Contract}
    (hfenced : Fenced (unmarked source) block body)
    (h : analyze d schema source file = .ok c) (inputs : List InputParameter) :
    c.inputs = inputs ↔
      List.Forall₂ (InputOf block) (occurrences d (String.ofList body)).eraseDups inputs := by
  obtain ⟨first, rest, contract, -, -, rfl⟩ := analyze_eq_ok h
  rw [forall₂_inputOf_iff, ← distinct_eq_eraseDups, hfenced.split]
  rfl

/-- Of two parameters that are declared in both ways one has its own line first and the other last.
A third is declared twice with the mark of a nullable one, and a fourth in a comment only. -/
theorem analyze_inputs_repeated :
    let block := ["p?: 'A'", "q: B", "p: ' C[] [] '", "broken", "q?: D", "r?: E", "r? : F []",
      "# s: G"].map String.toList
    let source := "---\np?: 'A'\nq: B\np: ' C[] [] '\nbroken\nq?: D\nr?: E\nr? : F []\n# s: G\n" ++
      "---\nselect :q, :p, :r, :s, :p"
    let inputs : List InputParameter :=
      [⟨"q", "B", false, false⟩, ⟨"p", "C[]", true, false⟩, ⟨"r", "F", true, true⟩,
        ⟨"s", "any", false, false⟩]
    ∃ c, Fenced (unmarked source) block "select :q, :p, :r, :s, :p".toList ∧
      analyze .postgres .empty source = .ok c ∧ c.inputs = inputs ∧
      List.Forall₂ (InputOf block) ["q", "p", "r", "s"] inputs := by
  intro block source inputs
  have hparts : unmarked source = ['-', '-', '-'] ++ '\n' :: (block.flatMap (· ++ ['\n']) ++
      (['-', '-', '-'] ++ '\n' :: "select :q, :p, :r, :s, :p".toList)) := by
    decide +kernel
  have hfenced : Fenced (unmarked source) block "select :q, :p, :r, :s, :p".toList := by
    rw [hparts]
    exact .intro (by decide) (by decide +kernel) (by decide) (.inl rfl)
  have hfound : (analyze .postgres .empty source).toOption.map Contract.inputs = some inputs := by
    decide +kernel
  obtain ⟨c, hc, hinputs⟩ := Option.map_eq_some_iff.1 hfound
  have hanalysis : analyze .postgres .empty source = .ok c := Outcome.eq_ok_of_toOption hc
  have hnames : (occurrences .postgres (String.ofList "select :q, :p, :r, :s, :p".toList)).eraseDups
      = ["q", "p", "r", "s"] := by
    decide +kernel
  refine ⟨c, hfenced, hanalysis, hinputs, ?_⟩
  rw [← hnames]
  exact (analyze_inputs hfenced hanalysis inputs).1 hinputs

end TypedSql.Analysis
