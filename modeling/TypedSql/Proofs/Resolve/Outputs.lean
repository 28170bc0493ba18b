import TypedSql.Proofs.Resolve.Tables
import TypedSql.Proofs.Resolve.Undeclared

/-! # The outputs of a statement

What the fields of a statement stand for, told by the schema alone: a star is all columns of all
relations in their order, and a column is looked up in the first relation and nowhere else. No field
stands for two things, and a statement whose relations are declared has the outputs of its fields
one after another.
-/

namespace TypedSql.Resolve

open Batch Collecting

/-! ## What a field stands for -/

/-- All columns of some relations: relation by relation, each with its columns in the order of the
schema. -/
inductive AllColumns (schema : Schema) : List Relation → List OutputField → Prop
  | nil : AllColumns schema [] []
  | cons {relation : Relation} {rest : List Relation} {columns : Columns}
      {outputs : List OutputField}
      (hcolumns : (relation.name, columns) ∈ schema.relations.entries)
      (hrest : AllColumns schema rest outputs) :
      AllColumns schema (relation :: rest)
        ((columns.entries.map fun (column, type) =>
          ⟨column, relation.name, type.typeName, none, type.nullable, type.array⟩) ++ outputs)

/-- A field of a statement with these relations stands for outputs, and there may be a finding about
it: one about a column that the first relation does not have, or that has no relation to be in. -/
inductive Resolves (schema : Schema) :
    List Relation → Field → List OutputField × List Diagnostic → Prop
  | star {relations : List Relation} {name : String} {aliasName : Option String}
      {outputs : List OutputField} (h : AllColumns schema relations outputs) :
      Resolves schema relations ⟨.wildcard, name, aliasName⟩ (outputs, [])
  | declared {first : Relation} {rest : List Relation} {columns : Columns} {name : String}
      {aliasName : Option String} {type : ColumnType}
      (hcolumns : (first.name, columns) ∈ schema.relations.entries)
      (htype : (name, type) ∈ columns.entries) :
      Resolves schema (first :: rest) ⟨.column, name, aliasName⟩
        ([⟨name, first.name, type.typeName, aliasName, type.nullable, type.array⟩], [])
  | undeclared {first : Relation} {rest : List Relation} {columns : Columns} {name : String}
      {aliasName : Option String} (hcolumns : (first.name, columns) ∈ schema.relations.entries)
      (hname : name ∉ columns.keys) :
      Resolves schema (first :: rest) ⟨.column, name, aliasName⟩
        ([⟨name, first.name, "unknown", aliasName, false, false⟩], [unknownColumn first.name name])
  | unrelated {name : String} {aliasName : Option String} :
      Resolves schema [] ⟨.column, name, aliasName⟩
        ([⟨name, "", "unknown", aliasName, false, false⟩], [unknownColumn "" name])

section

variable {schema : Schema} {relations : List Relation}

/-! ## One meaning for each field -/

theorem AllColumns.unique {outputs outputs' : List OutputField}
    (h : AllColumns schema relations outputs) (h' : AllColumns schema relations outputs') :
    outputs = outputs' := by
  induction h generalizing outputs' with
  | nil =>
      cases h'
      rfl
  | cons hcolumns _ ih =>
      cases h' with
      | cons hcolumns' hrest' => rw [Keyed.eq_of_mem_entries hcolumns hcolumns', ih hrest']

theorem resolves_rightUnique : Relator.RightUnique (Resolves schema relations) := by
  intro field part part' h h'
  -- The first relation has one table, and a name is one of its columns or is none of them.
  cases h with
  | star h =>
      cases h' with
      | star h' => rw [h.unique h']
  | declared hcolumns htype =>
      cases h' with
      | declared hcolumns' htype' =>
          cases Keyed.eq_of_mem_entries hcolumns hcolumns'
          rw [Keyed.eq_of_mem_entries htype htype']
      | undeclared hcolumns' hname' =>
          cases Keyed.eq_of_mem_entries hcolumns hcolumns'
          exact absurd (List.mem_map_of_mem htype) hname'
  | undeclared hcolumns hname =>
      cases h' with
      | declared hcolumns' htype' =>
          cases Keyed.eq_of_mem_entries hcolumns hcolumns'
          exact absurd (List.mem_map_of_mem htype') hname
      | undeclared hcolumns' hname' => rfl
  | unrelated =>
      cases h' with
      | unrelated => rfl

/-! ## What is resolved -/

variable {tables : List (String × Columns)}

theorem allColumns_expandWildcard (h : List.Forall₂ (DeclaredAs schema) relations tables) :
    AllColumns schema relations (expandWildcard tables) := by
  induction h with
  | nil => exact .nil
  | @cons relation table rest tables hfirst _ ih =>
      obtain ⟨name, columns⟩ := table
      obtain ⟨rfl, hcolumns⟩ := hfirst
      exact .cons (Schema.table?_eq_some_iff.1 hcolumns) ih

theorem resolves_resolveColumn (h : List.Forall₂ (DeclaredAs schema) relations tables)
    (name : String) (aliasName : Option String) :
    Resolves schema relations ⟨.column, name, aliasName⟩
      ([(resolveColumn tables ⟨.column, name, aliasName⟩).1],
        (resolveColumn tables ⟨.column, name, aliasName⟩).2) := by
  cases h with
  | nil => exact .unrelated
  | @cons first table rest tables hfirst _ =>
      obtain ⟨_, columns⟩ := table
      obtain ⟨rfl, hcolumns⟩ := hfirst
      have hentry := Schema.table?_eq_some_iff.1 hcolumns
      -- Only the first table is looked into, whatever the others are.
      have hlookup : ((first.name, columns) :: tables).head?.bind (fun table => table.2.get? name) =
          columns.get? name := rfl
      unfold resolveColumn
      rw [hlookup]
      cases htype : columns.get? name with
      | none => exact .undeclared hentry (Keyed.get?_eq_none_iff.1 htype)
      | some type => exact .declared hentry (Keyed.get?_eq_some_iff.1 htype)

theorem resolves_resolveField (h : List.Forall₂ (DeclaredAs schema) relations tables)
    (field : Field) : Resolves schema relations field (resolveField tables field) := by
  obtain ⟨kind, name, aliasName⟩ := field
  cases kind with
  | wildcard => exact .star (allColumns_expandWildcard h)
  | column => exact resolves_resolveColumn h name aliasName

theorem warning_of_resolves {field : Field} {part : List OutputField × List Diagnostic}
    (h : Resolves schema relations field part) :
    ∀ d ∈ part.2, d.code = .sqlUnknownColumn ∧ d.severity = .warn := by
  cases h with
  | star h => exact nofun
  | declared hcolumns htype => exact nofun
  | undeclared hcolumns hname => simp [unknownColumn, Diagnostic.ofMessage]
  | unrelated => simp [unknownColumn, Diagnostic.ofMessage]

end

/-- A statement whose relations are all declared is resolved, whatever is held already: its outputs
are those that its fields stand for, field by field in order, and the findings about the fields come
in the same order after those that are held. All of them are warnings about columns that are not
declared, and the fields stand for nothing else. -/
theorem collect_declared (schema : Schema) (held : List Diagnostic) (shape : StatementShape)
    (h : ∀ relation ∈ shape.relations, relation.name ∈ schema.tableNames) :
    ∃ parts, List.Forall₂ (Resolves schema shape.relations) shape.fields parts ∧
      (collect schema shape).after held =
        ⟨.ok (parts.flatMap Prod.fst), held ++ parts.flatMap Prod.snd⟩ ∧
      (∀ d ∈ parts.flatMap Prod.snd, d.code = .sqlUnknownColumn ∧ d.severity = .warn) ∧
      ∀ parts', List.Forall₂ (Resolves schema shape.relations) shape.fields parts' →
        parts' = parts := by
  obtain ⟨tables, htables⟩ := exists_tables h
  have hfields : ∀ field, Resolves schema shape.relations field (resolveField tables field) :=
    resolves_resolveField (tables_eq_ok_iff.1 htables)
  have hparts : List.Forall₂ (Resolves schema shape.relations) shape.fields
      (shape.fields.map (resolveField tables)) :=
    List.forall₂_map_right_iff.2 (List.forall₂_same.2 fun field _ => hfields field)
  refine ⟨_, hparts, ?_, ?_, fun parts' hparts' => resolves_rightUnique.forall₂ hparts' hparts⟩
  · rw [after_collect, resolve, htables]
    rfl
  · intro d hd
    obtain ⟨part, hpart, hd⟩ := List.mem_flatMap.1 hd
    obtain ⟨field, -, rfl⟩ := List.mem_map.1 hpart
    exact warning_of_resolves (hfields field) d hd

/-- A star over two relations, a column that only the second of them has and one under another name:
the first gives all columns of both, the second has no type and the third the type of its column. -/
theorem collect_declared_join :
    let schema := (Schema.empty.withTable "products"
      [("id", ⟨"number", false, false⟩), ("tags", ⟨"string", true, true⟩)]).withTable "categories"
      [("id", ⟨"string", false, false⟩), ("title", ⟨"string", false, false⟩)]
    let shape : StatementShape := ⟨.select, [.wildcard, .column "title", .aliased "id" "key"],
      [⟨"products", some "p"⟩, ⟨"categories", none⟩]⟩
    let star : List OutputField :=
      [⟨"id", "products", "number", none, false, false⟩,
        ⟨"tags", "products", "string", none, true, true⟩,
        ⟨"id", "categories", "string", none, false, false⟩,
        ⟨"title", "categories", "string", none, false, false⟩]
    (∀ relation ∈ shape.relations, relation.name ∈ schema.tableNames) ∧
      ∃ parts, List.Forall₂ (Resolves schema shape.relations) shape.fields parts ∧
        parts.flatMap Prod.fst = star ++ [⟨"title", "products", "unknown", none, false, false⟩,
          ⟨"id", "products", "number", some "key", false, false⟩] ∧
        parts.flatMap Prod.snd = [unknownColumn "products" "title"] := by
  intro schema shape star
  have hdeclared : ∀ relation ∈ shape.relations, relation.name ∈ schema.tableNames := by decide
  obtain ⟨parts, hparts, hafter, -, -⟩ := collect_declared schema [] shape hdeclared
  have hvalue : (collect schema shape).after [] =
      ⟨.ok (star ++ [⟨"title", "products", "unknown", none, false, false⟩,
        ⟨"id", "products", "number", some "key", false, false⟩]),
        [unknownColumn "products" "title"]⟩ := rfl
  rw [hvalue, Progress.mk.injEq, Except.ok.injEq] at hafter
  exact ⟨hdeclared, parts, hparts, hafter.1.symm, hafter.2.symm⟩

end TypedSql.Resolve
