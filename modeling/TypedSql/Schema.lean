import TypedSql.Keyed

/-!
# Schemas

The declared relations with their typed columns. Names are compared exactly, and both relations and
columns keep the order of their declaration.
-/

namespace TypedSql

/-- The declared type of a column. -/
structure ColumnType where
  typeName : String
  nullable : Bool
  array : Bool
  deriving DecidableEq, Repr, Inhabited

/-- The columns of one relation in order. -/
abbrev Columns := Keyed ColumnType

/-- The relations of a project in order. -/
structure Schema where
  relations : Keyed Columns
  deriving DecidableEq, Inhabited

namespace Schema

/-- No relations. -/
def empty : Schema := ⟨Keyed.empty⟩

/-- Adds a relation; one of the same name is replaced in its place. -/
def withTable (s : Schema) (name : String) (columns : List (String × ColumnType)) : Schema :=
  ⟨s.relations.insert name (Keyed.ofList columns)⟩

/-- The columns of a relation, if it is declared. -/
def table? (s : Schema) (name : String) : Option Columns := s.relations.get? name

/-- The names of the relations in order. -/
def tableNames (s : Schema) : List String := s.relations.keys

/-- Whether no relation is declared. -/
def isEmpty (s : Schema) : Bool := s.relations.isEmpty

end Schema

end TypedSql
