import TypedSql.Proofs.Batch.Collectors
import TypedSql.Proofs.Keyed
import TypedSql.Proofs.Outcome

/-! # Statements that name undeclared relations

Relations are looked up in the order of the statement and before any of its fields. So a statement
is refused exactly when some relation has a name that the schema does not declare, the first of them
is the one that is told, and the findings held so far stay as they are.
-/

namespace TypedSql

/-! ## Names of a schema -/

namespace Schema

variable {schema : Schema} {name : String}

theorem table?_eq_some_iff {columns : Columns} :
    schema.table? name = some columns ↔ (name, columns) ∈ schema.relations.entries :=
  Keyed.get?_eq_some_iff

theorem table?_eq_none_iff : schema.table? name = none ↔ name ∉ schema.tableNames :=
  Keyed.get?_eq_none_iff

end Schema

namespace Resolve

open Batch Collecting

/-! ## The first relation that is missing -/

/-- The first relation of a statement that the schema does not declare has this name. -/
inductive FirstUndeclared (schema : Schema) : List Relation → String → Prop
  | here {relation : Relation} {rest : List Relation} (h : relation.name ∉ schema.tableNames) :
      FirstUndeclared schema (relation :: rest) relation.name
  | later {relation : Relation} {rest : List Relation} {name : String}
      (hdeclared : relation.name ∈ schema.tableNames) (h : FirstUndeclared schema rest name) :
      FirstUndeclared schema (relation :: rest) name

section

variable {schema : Schema} {relations : List Relation}

theorem exists_firstUndeclared_iff :
    (∃ name, FirstUndeclared schema relations name) ↔
      ∃ relation ∈ relations, relation.name ∉ schema.tableNames := by
  constructor
  · rintro ⟨name, h⟩
    induction h with
    | @here relation rest h => exact ⟨relation, List.mem_cons_self, h⟩
    | later _ _ ih =>
        obtain ⟨relation, hrelation, h⟩ := ih
        exact ⟨relation, List.mem_cons_of_mem _ hrelation, h⟩
  · intro h
    induction relations with
    | nil => simp at h
    | cons relation rest ih =>
        by_cases hdeclared : relation.name ∈ schema.tableNames
        · obtain ⟨name, hrest⟩ := ih (by simpa [hdeclared] using h)
          exact ⟨name, .later hdeclared hrest⟩
        · exact ⟨relation.name, .here hdeclared⟩

theorem tables_eq_error_iff {e : UnknownRelation} :
    tables schema relations = .error e ↔ FirstUndeclared schema relations e.relation := by
  obtain ⟨name⟩ := e
  induction relations with
  | nil => exact ⟨nofun, nofun⟩
  | cons relation rest ih =>
      rw [tables]
      cases hcolumns : schema.table? relation.name with
      | none =>
          have hmissing := Schema.table?_eq_none_iff.1 hcolumns
          constructor
          · intro h
            cases h
            exact .here hmissing
          · intro h
            cases h with
            | here => rfl
            | later hdeclared => exact absurd hdeclared hmissing
      | some columns =>
          -- This relation is there, so whatever is missing comes later.
          have hdeclared : relation.name ∈ schema.tableNames := by
            by_contra hmissing
            rw [Schema.table?_eq_none_iff.2 hmissing] at hcolumns
            cases hcolumns
          rw [Outcome.map_eq_error, ih]
          constructor
          · exact .later hdeclared
          · intro h
            cases h with
            | here hmissing => exact absurd hdeclared hmissing
            | later _ h => exact h

/-- Where all relations are declared, there are tables for them. -/
theorem exists_tables (h : ∀ relation ∈ relations, relation.name ∈ schema.tableNames) :
    ∃ found, tables schema relations = .ok found := by
  cases hfound : tables schema relations with
  | ok found => exact ⟨found, rfl⟩
  | error e =>
      obtain ⟨relation, hrelation, hmissing⟩ :=
        exists_firstUndeclared_iff.1 ⟨_, tables_eq_error_iff.1 hfound⟩
      exact absurd (h relation hrelation) hmissing

end

/-! ## Statements that are refused -/

section

variable {ε β : Type} {x : Except ε (β × List Diagnostic)} {e : ε} {held findings : List Diagnostic}

theorem result_leave_eq_error_iff : (leave held x).result = .error e ↔ x = .error e := by
  cases x <;> simp [leave]

theorem leave_eq_error_iff :
    leave held x = ⟨.error e, findings⟩ ↔ x = .error e ∧ findings = held := by
  cases x <;> simp [leave, eq_comm]

end

/-- Under every schema, whatever is held already and whatever the kind and the fields of a statement
are: resolving it fails exactly when some relation of it has a name that is not among those of the
schema. It fails with the first such name in the order of the statement and leaves what is held as
it was, also when fields name columns that are not declared. -/
theorem collect_fails_iff (schema : Schema) (held : List Diagnostic) (shape : StatementShape) :
    ((∃ e, ((collect schema shape).after held).result = .error e) ↔
      ∃ relation ∈ shape.relations, relation.name ∉ schema.tableNames) ∧
    ∀ e findings, (collect schema shape).after held = ⟨.error e, findings⟩ ↔
      FirstUndeclared schema shape.relations e.relation ∧ findings = held := by
  have hfails : ∀ e, resolve schema shape = .error e ↔
      FirstUndeclared schema shape.relations e.relation := by
    intro e
    rw [resolve, Outcome.map_eq_error, tables_eq_error_iff]
  rw [after_collect]
  constructor
  · rw [← exists_firstUndeclared_iff]
    constructor
    · rintro ⟨e, he⟩
      exact ⟨e.relation, (hfails e).1 (result_leave_eq_error_iff.1 he)⟩
    · rintro ⟨name, hname⟩
      exact ⟨⟨name⟩, result_leave_eq_error_iff.2 ((hfails ⟨name⟩).2 hname)⟩
  · intro e findings
    rw [leave_eq_error_iff, hfails]

end Resolve

end TypedSql
