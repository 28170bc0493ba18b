import Mathlib.Data.List.Forall2
import TypedSql.Proofs.Outcome
import TypedSql.Resolve

namespace TypedSql.Resolve

/-! # The tables of a statement

The tables that a statement resolves against are those that the schema declares under the names of
its relations, one for each and in their order. There are such tables only when the schema declares
all of these names.
-/

/-- A relation is declared with these columns, and they are kept under its name. -/
structure DeclaredAs (schema : Schema) (relation : Relation) (table : String × Columns) :
    Prop where
  name_eq : table.1 = relation.name
  table?_eq : schema.table? relation.name = some table.2

section

variable {schema : Schema} {relations : List Relation} {found : List (String × Columns)}

theorem tables_eq_ok_iff :
    tables schema relations = .ok found ↔ List.Forall₂ (DeclaredAs schema) relations found := by
  induction relations generalizing found with
  | nil =>
      rw [tables, List.forall₂_nil_left_iff, Except.ok.injEq]
      exact eq_comm
  | cons relation rest ih =>
      rw [tables, List.forall₂_cons_left_iff]
      constructor
      · intro h
        split at h
        · cases h
        · next columns hcolumns =>
            obtain ⟨others, hothers, rfl⟩ := Outcome.map_eq_ok.1 h
            exact ⟨_, others, ⟨rfl, hcolumns⟩, ih.1 hothers, rfl⟩
      · rintro ⟨⟨name, columns⟩, others, ⟨hname, hcolumns⟩, hothers, rfl⟩
        cases hname
        rw [hcolumns, ih.2 hothers]
        rfl

/-- The tables of a statement are those that the schema declares. -/
theorem table?_of_tables (h : tables schema relations = .ok found) :
    ∀ table ∈ found, schema.table? table.1 = some table.2 := by
  have hdeclared := tables_eq_ok_iff.1 h
  clear h
  induction hdeclared with
  | nil => exact nofun
  | cons hfirst _ ih => exact List.forall_mem_cons.2 ⟨by rw [hfirst.name_eq, hfirst.table?_eq], ih⟩

/-- Whatever has outputs names only relations that are declared. -/
theorem isSome_of_resolve {shape : StatementShape} {outputs : List OutputField × List Diagnostic}
    (h : resolve schema shape = .ok outputs) :
    ∀ relation ∈ shape.relations, (schema.table? relation.name).isSome := by
  obtain ⟨found, hfound, -⟩ := Outcome.map_eq_ok.1 h
  have hdeclared := tables_eq_ok_iff.1 hfound
  clear hfound h
  generalize shape.relations = relations at hdeclared
  induction hdeclared with
  | nil => exact nofun
  | cons hfirst _ ih =>
      exact List.forall_mem_cons.2 ⟨by rw [hfirst.table?_eq, Option.isSome_some], ih⟩

end

end TypedSql.Resolve
