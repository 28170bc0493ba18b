import TypedSql.Proofs.Analysis.Statements
import TypedSql.Proofs.Declaration.Reading
import TypedSql.Proofs.Keyed
import TypedSql.Proofs.Resolve.Tables
import TypedSql.Proofs.TypeText.Declared

namespace TypedSql

open PropertyName Text

/-! # The interfaces of a contract

A contract has one field for each input and one for each key of an output, with types that come from
the front matter and the schema. Names go into the declaration as they are, so an interface can be
read back exactly when all of them are legal.
-/

/-! ## Types on one line -/

/-- Whether a text is on one line can be computed. -/
theorem onOneLine_of_all {s : String} (h : s.toList.all (fun c => !lineEnds.contains c) = true) :
    OnOneLine s := by
  intro c hc
  simpa using List.all_eq_true.1 h c hc

/-- Two texts on one line make one. -/
theorem OnOneLine.append {s t : String} (hs : OnOneLine s) (ht : OnOneLine t) :
    OnOneLine (s ++ t) := by
  intro c hc
  rw [String.toList_append, List.mem_append] at hc
  rcases hc with hc | hc
  · exact hs c hc
  · exact ht c hc

/-- A text with no other characters than one on one line is on one line. -/
theorem OnOneLine.of_subset {s t : List Char} (h : OnOneLine (String.ofList t)) (hst : s ⊆ t) :
    OnOneLine (String.ofList s) := by
  intro c hc
  rw [String.toList_ofList] at hc
  exact h c (by rw [String.toList_ofList]; exact hst hc)

/-- Trimming adds no character. -/
theorem Text.trimRight_subset (s : List Char) : trimRight s ⊆ s := by
  intro c hc
  exact List.mem_reverse.1 (List.dropWhile_subset _ (List.mem_reverse.1 hc))

namespace TypeText

variable {t : String} {array nullable : Bool}

/-- A type on one line is rendered on one line. -/
theorem onOneLine_render (h : OnOneLine t) : OnOneLine (render t array nullable) := by
  have hmark : OnOneLine arrayMark := onOneLine_of_all (by decide)
  have hnull : OnOneLine " | null" := onOneLine_of_all (by decide)
  have hopen : OnOneLine "(" := onOneLine_of_all (by decide)
  have hclose : OnOneLine ")" := onOneLine_of_all (by decide)
  have harray : OnOneLine (arrayOf t) := by
    unfold arrayOf
    split
    · exact ((hopen.append h).append hclose).append hmark
    · exact h.append hmark
  have hbase : OnOneLine (if array then arrayOf t else t) := by
    cases array with
    | false => exact h
    | true => exact harray
  cases nullable with
  | false => exact hbase
  | true => exact hbase.append hnull

/-- An array of anything is written out, and whatever is written out stays so with null. -/
theorem isTypeText_render (h : OnOneLine t) (hne : array = true ∨ t ≠ "") :
    IsTypeText (render t array nullable) := by
  refine ⟨?_, onOneLine_render h⟩
  have hbase : (if array then arrayOf t else t) ≠ "" := by
    cases array with
    | false => exact hne.resolve_left Bool.false_ne_true
    | true =>
        have hmark : (arrayOf t).toList ≠ [] := by
          rw [← String.ofList_toList (s := t), arrayOf_toList]
          split <;> simp
        exact fun hempty => hmark (String.toList_eq_nil_iff.2 hempty)
  cases nullable with
  | false => exact hbase
  | true =>
      intro hempty
      have hlist : ((if array then arrayOf t else t) ++ " | null").toList = [] :=
        String.toList_eq_nil_iff.2 hempty
      rw [String.toList_append] at hlist
      exact absurd (List.append_eq_nil_iff.1 hlist).2 (by decide)

end TypeText

/-- The types that a schema and a front matter declare are written on one line. -/
structure WrittenTypes (schema : Schema) (metadata : Keyed String) : Prop where
  columns : ∀ relation columns, schema.table? relation = some columns →
    ∀ column ∈ columns.entries, IsTypeText column.2.typeName
  declared : ∀ key type, metadata.get? key = some type →
    IsTypeText (String.ofList (trim type.toList))

section

variable {schema : Schema} {metadata : Keyed String}

/-- An input has the type that is declared for it. -/
theorem isTypeText_declaredInput {type : String} (h : IsTypeText (String.ofList (trim type.toList)))
    (name : String) (nullable : Bool) :
    IsTypeText (Placeholder.declaredInput name type nullable).member.typeName := by
  unfold Placeholder.declaredInput
  dsimp only
  cases helement : Placeholder.elementType? (trim type.toList) with
  | none => exact TypeText.isTypeText_render h.onOneLine (.inr h.ne_empty)
  | some element =>
      obtain ⟨front, hfront, rfl⟩ := Placeholder.elementType?_iff.1 helement
      refine TypeText.isTypeText_render (h.onOneLine.of_subset ?_) (.inl rfl)
      rw [hfront]
      exact List.Subset.trans (Text.trimRight_subset front) (List.subset_append_left _ _)

/-- Inputs have type texts, whether they are declared or not. -/
theorem WrittenTypes.input (h : WrittenTypes schema metadata) (name : String) :
    IsTypeText (Placeholder.describe metadata name).member.typeName := by
  have hany : IsTypeText "any" := ⟨by decide, onOneLine_of_all (by decide)⟩
  unfold Placeholder.describe
  split
  · next type hget => exact isTypeText_declaredInput (h.declared _ _ hget) name false
  · split
    · next type hget => exact isTypeText_declaredInput (h.declared _ _ hget) name true
    · show IsTypeText (TypeText.render "any" false false)
      exact TypeText.isTypeText_render hany.onOneLine (.inr hany.ne_empty)

/-! ## Types of outputs -/

/-- The outputs of a field have types of the tables. -/
theorem isTypeText_resolveField (h : WrittenTypes schema metadata)
    {tables : List (String × Columns)}
    (htables : ∀ table ∈ tables, schema.table? table.1 = some table.2) (field : Field) :
    ∀ output ∈ (Resolve.resolveField tables field).1, IsTypeText output.typeName := by
  have hunknown : IsTypeText Resolve.unknownType := ⟨by decide, onOneLine_of_all (by decide)⟩
  intro output houtput
  unfold Resolve.resolveField at houtput
  split at houtput
  · obtain ⟨table, htable, houtput⟩ := List.mem_flatMap.1 houtput
    obtain ⟨column, hcolumn, rfl⟩ := List.mem_map.1 houtput
    exact h.columns _ _ (htables table htable) column hcolumn
  · rw [List.mem_singleton.1 houtput]
    unfold Resolve.resolveColumn
    dsimp only
    split
    · next type htype =>
        obtain ⟨table, hfirst, hget⟩ := Option.bind_eq_some_iff.1 htype
        have htable := htables table (List.mem_of_mem_head? hfirst)
        exact h.columns _ _ htable _ (Keyed.get?_eq_some_iff.1 hget)
    · exact hunknown

/-- The outputs of a statement have types of the schema. -/
theorem isTypeText_of_resolve (h : WrittenTypes schema metadata) {shape : StatementShape}
    {outputs : List OutputField} {findings : List Diagnostic}
    (hresolve : Resolve.resolve schema shape = .ok (outputs, findings)) :
    ∀ output ∈ outputs, IsTypeText output.typeName := by
  obtain ⟨tables, htables, hresult⟩ := Outcome.map_eq_ok.1 hresolve
  cases hresult
  intro output houtput
  obtain ⟨resolved, hresolved, houtput⟩ := List.mem_flatMap.1 houtput
  obtain ⟨field, _, rfl⟩ := List.mem_map.1 hresolved
  exact isTypeText_resolveField h (Resolve.table?_of_tables htables) field output houtput

end

/-! ## The fields of the interfaces -/

namespace Contract

/-- The first outputs of each key have the keys without repetitions. -/
theorem keys_firstOfKeys (seen : List String) (placed : List (OutputField × Nat)) :
    (firstOfKeys seen placed).map (fun o => o.1.key) =
      ((placed.map fun o => o.1.key).filter (· ∉ seen)).eraseDups := by
  induction placed generalizing seen with
  | nil => simp [firstOfKeys]
  | cons o rest ih =>
      rw [firstOfKeys, List.map_cons]
      by_cases h : o.1.key ∈ seen
      · -- The keys that are new after a repeat are new before it.
        have hsame : (rest.map fun o => o.1.key).filter (· ∉ o.1.key :: seen) =
            (rest.map fun o => o.1.key).filter (· ∉ seen) := by
          refine List.filter_congr fun key _ => ?_
          by_cases hkey : key = o.1.key <;> simp [hkey, h]
        rw [List.filter_cons_of_neg (by simpa using h), if_pos (by simpa using h), ih, hsame]
      · have hmore : ((rest.map fun o => o.1.key).filter (· ∉ seen)).filter
              (fun key => !key == o.1.key) =
            (rest.map fun o => o.1.key).filter (· ∉ o.1.key :: seen) := by
          rw [List.filter_filter]
          refine List.filter_congr fun key _ => ?_
          by_cases hkey : key = o.1.key <;> simp [hkey]
        rw [List.filter_cons_of_pos (by simpa using h), List.eraseDups_cons, hmore,
          if_neg (by simpa using h), List.map_cons, ih]

/-- The first outputs of each key stay in their order. -/
theorem sublist_firstOfKeys (seen : List String) (placed : List (OutputField × Nat)) :
    (firstOfKeys seen placed).Sublist placed := by
  fun_induction firstOfKeys seen placed with
  | case1 => exact List.Sublist.slnil
  | case2 seen output place rest others _ ih => exact ih.cons _
  | case3 seen output place rest others _ ih => exact ih.cons_cons _

/-- Every key has one output that is kept. -/
theorem keys_distinctOutputs (c : Contract) :
    c.distinctOutputs.map OutputField.key = (c.outputs.map OutputField.key).eraseDups := by
  have houtputs : (c.outputs.zipIdx.map fun o => o.1.key) = c.outputs.map OutputField.key := by
    have hfields := List.map_map (f := Prod.fst) (g := OutputField.key) (l := c.outputs.zipIdx)
    rw [List.zipIdx_map_fst] at hfields
    exact hfields.symm
  have hkeys := keys_firstOfKeys [] c.outputs.zipIdx
  rw [List.filter_eq_self.2 (by simp), houtputs] at hkeys
  rw [distinctOutputs, List.map_map]
  exact hkeys

/-- The outputs that are kept are outputs of the contract. -/
theorem distinctOutputs_subset (c : Contract) : c.distinctOutputs ⊆ c.outputs := by
  have hkept := (sublist_firstOfKeys [] c.outputs.zipIdx).map Prod.fst
  rw [List.zipIdx_map_fst] at hkept
  exact hkept.subset

end Contract

namespace Bindings

variable {names : InterfaceNames} {c : Contract} {i : Interface}

/-- There is a field for every input and one for every key of an output. -/
theorem names_interfaces (names : InterfaceNames) (c : Contract) :
    (interfaces names c).map (fun i => (i.name, i.fields.map Member.name)) =
      (if c.inputs.isEmpty then [] else [(names.input, c.inputs.map InputParameter.name)]) ++
        (if c.outputs.isEmpty then []
          else [(names.result, (c.outputs.map OutputField.key).eraseDups)]) := by
  have hinputs : (c.inputs.map InputParameter.member).map Member.name =
      c.inputs.map InputParameter.name := List.map_map
  have houtputs : (c.distinctOutputs.map OutputField.member).map Member.name =
      (c.outputs.map OutputField.key).eraseDups := by
    rw [List.map_map, ← Contract.keys_distinctOutputs]
    rfl
  unfold interfaces
  cases c.inputs.isEmpty <;> cases c.outputs.isEmpty <;> simp [hinputs, houtputs]

/-- An interface holds the inputs or the outputs that are kept. -/
theorem fields_of_mem_interfaces (hi : i ∈ interfaces names c) :
    (c.inputs ≠ [] ∧ i.fields = c.inputs.map InputParameter.member) ∨
      (c.outputs ≠ [] ∧ i.fields = c.distinctOutputs.map OutputField.member) := by
  unfold interfaces at hi
  rcases List.mem_append.1 hi with hi | hi
  · split at hi
    · cases hi
    · next hinputs =>
        rw [List.mem_singleton.1 hi]
        exact .inl ⟨by simpa using hinputs, rfl⟩
  · split at hi
    · cases hi
    · next houtputs =>
        rw [List.mem_singleton.1 hi]
        exact .inr ⟨by simpa using houtputs, rfl⟩

/-- No interface is empty. -/
theorem fields_ne_nil (hi : i ∈ interfaces names c) : i.fields ≠ [] := by
  rcases fields_of_mem_interfaces hi with ⟨hinputs, hfields⟩ | ⟨houtputs, hfields⟩
  · rw [hfields]
    simpa using hinputs
  · -- The first output is not left out, since there is no key before its own.
    rw [hfields]
    intro hnone
    have hkeys := Contract.keys_distinctOutputs c
    rw [List.map_eq_nil_iff.1 hnone] at hkeys
    cases hout : c.outputs with
    | nil => exact houtputs hout
    | cons output rest =>
        rw [hout, List.map_cons, List.eraseDups_cons] at hkeys
        cases hkeys

/-! ## The place of an interface -/

/-- Each of several lines has a line feed in front of it. -/
theorem exists_intercalate {lines : List String} {line : String} (h : line ∈ lines) :
    ∃ front back, "\n" ++ "\n".intercalate lines = front ++ "\n" ++ line ++ back := by
  induction lines with
  | nil => cases h
  | cons first rest ih =>
      by_cases hrest : rest = []
      · subst hrest
        rw [List.mem_singleton.1 h]
        exact ⟨"", "", by simp⟩
      · rw [String.intercalate_cons_of_ne_nil hrest]
        rcases List.mem_cons.1 h with rfl | h
        · exact ⟨"", "\n" ++ "\n".intercalate rest, by simp [String.append_assoc]⟩
        · obtain ⟨front, back, hlines⟩ := ih h
          refine ⟨"\n" ++ first ++ front, back, ?_⟩
          calc "\n" ++ (first ++ "\n" ++ "\n".intercalate rest)
              = "\n" ++ first ++ ("\n" ++ "\n".intercalate rest) := by simp [String.append_assoc]
            _ = "\n" ++ first ++ (front ++ "\n" ++ line ++ back) := by rw [hlines]
            _ = "\n" ++ first ++ front ++ "\n" ++ line ++ back := by simp [String.append_assoc]

/-- Each line of a block starts on a line of its own. -/
theorem exists_block {lines : List String} {line : String} (h : line ∈ lines) :
    ∃ front back, Declaration.block lines = front ++ "\n" ++ line ++ back := by
  obtain ⟨front, back, hlines⟩ := exists_intercalate h
  have hsome : lines.isEmpty = false := by
    cases lines with
    | nil => cases h
    | cons => rfl
  have hsplit : "\n\n" = "\n" ++ "\n" := by decide
  refine ⟨"\n" ++ front, back ++ "\n", ?_⟩
  calc Declaration.block lines
      = "\n\n" ++ "\n".intercalate lines ++ "\n" := by rw [Declaration.block, hsome]; rfl
    _ = "\n" ++ ("\n" ++ "\n".intercalate lines) ++ "\n" := by
        rw [hsplit]
        simp only [String.append_assoc]
    _ = "\n" ++ (front ++ "\n" ++ line ++ back) ++ "\n" := by rw [hlines]
    _ = "\n" ++ front ++ "\n" ++ line ++ (back ++ "\n") := by simp only [String.append_assoc]

/-- An interface is printed from the start of a line of the declaration. -/
theorem exists_text_declaration (names : InterfaceNames) (module : String) (c : Contract)
    (hi : i ∈ interfaces names c) :
    ∃ front back, (declaration names module c).text = front ++ "\n" ++ i.text ++ back := by
  obtain ⟨front, back, hblock⟩ := exists_block (List.mem_map_of_mem (f := Interface.text) hi)
  refine ⟨"declare module \"" ++ module ++ "\" \x7b" ++ front,
    back ++ Declaration.block ((functions names c).map Signature.text) ++ "\x7d", ?_⟩
  unfold Declaration.text declaration
  rw [hblock]
  simp only [String.append_assoc]

/-! ## Reading a declaration back -/

/-- The interfaces of a contract have one field for every input and one for every key of an output,
and each is printed from the start of a line. It is read as its fields, one from each line, exactly
when all of their names are legal. -/
theorem interfaces_read_iff {w : WideLetters} {d : Dialect} {schema : Schema} {source : String}
    {file : Option Path} {c : Contract} (names : InterfaceNames) (module : String)
    (htypes : WrittenTypes schema (FrontMatter.split source).metadata)
    (hc : Analysis.analyze d schema source file = .ok c) :
    (declaration names module c).interfaces.map (fun i => (i.name, i.fields.map Member.name)) =
        (if c.inputs.isEmpty then [] else [(names.input, c.inputs.map InputParameter.name)]) ++
          (if c.outputs.isEmpty then []
            else [(names.result, (c.outputs.map OutputField.key).eraseDups)]) ∧
      ∀ i ∈ (declaration names module c).interfaces,
        (∃ front back, (declaration names module c).text = front ++ "\n" ++ i.text ++ back) ∧
          ((∀ fields, Interface.Reads w i.name i.text fields ↔ fields = i.fields) ↔
            ∀ m ∈ i.fields, PropertyName w m.name.toList) := by
  refine ⟨names_interfaces names c, fun i hi => ⟨exists_text_declaration names module c hi, ?_⟩⟩
  obtain ⟨first, rest, contract, _, hcontract, rfl⟩ := Analysis.analyze_eq_ok hc
  obtain ⟨found, outputs, findings, _, hresolve, rfl⟩ := Analysis.ofStatement_eq_ok hcontract
  have houtputs := isTypeText_of_resolve htypes hresolve
  refine Interface.reads_text_iff i (fields_ne_nil hi) ?_
  intro m hm
  rcases fields_of_mem_interfaces hi with ⟨_, hfields⟩ | ⟨_, hfields⟩
  · rw [hfields] at hm
    obtain ⟨input, hinput, rfl⟩ := List.mem_map.1 hm
    obtain ⟨name, _, rfl⟩ := List.mem_map.1 hinput
    exact htypes.input name
  · rw [hfields] at hm
    obtain ⟨output, houtput, rfl⟩ := List.mem_map.1 hm
    have htype := houtputs output (Contract.distinctOutputs_subset _ houtput)
    exact TypeText.isTypeText_render htype.onOneLine (.inr htype.ne_empty)

/-- A schema of one column, without front matter. -/
theorem writtenTypes_column {type : ColumnType} (relation column : String)
    (h : IsTypeText type.typeName) :
    WrittenTypes (Schema.empty.withTable relation [(column, type)]) Keyed.empty where
  columns name columns hcolumns entry hentry := by
    have hrelation : (name, columns) ∈ [(relation, Keyed.ofList [(column, type)])] :=
      Keyed.get?_eq_some_iff.1 hcolumns
    rw [List.mem_singleton] at hrelation
    cases hrelation
    have hcolumn : entry ∈ [(column, type)] := hentry
    rw [List.mem_singleton] at hcolumn
    rw [hcolumn]
    exact h
  declared key type htype := by cases htype

/-- A parameter and an alias, both named by a word. -/
theorem interfaces_read_alias :
    ∃ c, Analysis.analyze .postgres
          (Schema.empty.withTable "products" [("id", ⟨"number", false, false⟩)])
          "select id as label from products where id = :p" = .ok c ∧
      (declaration .standard "q.sql" c).interfaces =
        [⟨"Input", [⟨"p", "any"⟩]⟩, ⟨"Result", [⟨"label", "number"⟩]⟩] ∧
      ∀ i ∈ (declaration .standard "q.sql" c).interfaces, ∀ fields,
        Interface.Reads .empty i.name i.text fields ↔ fields = i.fields := by
  have htypes : WrittenTypes (Schema.empty.withTable "products" [("id", ⟨"number", false, false⟩)])
      (FrontMatter.split "select id as label from products where id = :p").metadata := by
    have hmetadata : (FrontMatter.split
        "select id as label from products where id = :p").metadata = Keyed.empty := by
      decide +kernel
    rw [hmetadata]
    exact writtenTypes_column _ _ ⟨by decide, onOneLine_of_all (by decide)⟩
  obtain ⟨c, hc⟩ : ∃ c, Analysis.analyze .postgres
      (Schema.empty.withTable "products" [("id", ⟨"number", false, false⟩)])
      "select id as label from products where id = :p" = .ok c :=
    ⟨_, Outcome.eq_ok_of_toOption (Option.some_get (by decide +kernel)).symm⟩
  have hinterfaces : (declaration .standard "q.sql" c).interfaces =
      [⟨"Input", [⟨"p", "any"⟩]⟩, ⟨"Result", [⟨"label", "number"⟩]⟩] := by
    have hsome : (Analysis.analyze .postgres
        (Schema.empty.withTable "products" [("id", ⟨"number", false, false⟩)])
        "select id as label from products where id = :p").toOption.map
          (fun c => (declaration .standard "q.sql" c).interfaces) =
        some [⟨"Input", [⟨"p", "any"⟩]⟩, ⟨"Result", [⟨"label", "number"⟩]⟩] := by decide +kernel
    rw [hc] at hsome
    exact Option.some.inj hsome
  refine ⟨c, hc, hinterfaces, fun i hi => ?_⟩
  refine ((interfaces_read_iff .standard "q.sql" htypes hc).2 i hi).2.2 fun m hm => ?_
  have hp : PropertyName .empty "p".toList := .of_letters (by decide) rfl
  have hlabel : PropertyName .empty "label".toList := .of_letters (by decide) (by decide)
  rw [hinterfaces, List.mem_cons, List.mem_singleton] at hi
  rcases hi with rfl | rfl
  · rw [List.mem_singleton.1 hm]
    exact hp
  · rw [List.mem_singleton.1 hm]
    exact hlabel

/-- A quoted column goes into the interface without its quotes, and nothing reads the line. -/
theorem interfaces_unread_quoted :
    WrittenTypes (Schema.empty.withTable "products" [("first name", ⟨"string", false, false⟩)])
        (FrontMatter.split "select \"first name\" from products").metadata ∧
      (Analysis.analyze .postgres
          (Schema.empty.withTable "products" [("first name", ⟨"string", false, false⟩)])
          "select \"first name\" from products").toOption.map
            (fun c => (declaration .standard "q.sql" c).interfaces) =
        some [⟨"Result", [⟨"first name", "string"⟩]⟩] ∧
      ∀ w fields, ¬ Interface.Reads w "Result"
        (Interface.text ⟨"Result", [⟨"first name", "string"⟩]⟩) fields := by
  refine ⟨?_, by decide +kernel, ?_⟩
  · have hmetadata : (FrontMatter.split "select \"first name\" from products").metadata =
        Keyed.empty := by decide +kernel
    rw [hmetadata]
    exact writtenTypes_column _ _ ⟨by decide, onOneLine_of_all (by decide)⟩
  · rintro w fields ⟨lines, htext, hlines⟩
    rw [Interface.toList_text _ (List.cons_ne_nil _ _)] at htext
    rw [← List.append_cancel_left htext, Interface.linesOf_cons] at hlines
    obtain ⟨m, hline⟩ := hlines.first (by decide)
    have hname : m.name.toList = "first name".toList := by
      have hfront := congrArg nameIn (List.append_cancel_left hline.text)
      rw [nameIn_append hline.name] at hfront
      exact hfront.symm.trans (by decide)
    have hlegal := hline.name
    rw [hname] at hlegal
    have hquote : 'f' ∉ quotes := by decide
    refine bare_of_not_string hlegal ?_ ' ' (by decide) (by decide)
    rintro c ⟨⟩
    exact hquote

end Bindings

end TypedSql
