import TypedSql.Contract
import TypedSql.Schema

/-!
# Resolution

The typed outputs of a statement: every relation it names has to be declared, and its fields take
their types from the schema. A single column is looked up in the first relation only.
-/

namespace TypedSql.Resolve

/-- A relation that the schema does not declare. -/
structure UnknownRelation where
  relation : String
  deriving DecidableEq, Repr, Inhabited

/-- The type of a column that is not declared. -/
def unknownType : String := "unknown"

/-- The columns of the named relations, or the first name that is not declared. -/
def tables (schema : Schema) : List Relation → Except UnknownRelation (List (String × Columns))
  | [] => .ok []
  | relation :: rest =>
      match schema.table? relation.name with
      | none => .error ⟨relation.name⟩
      | some columns => (tables schema rest).map ((relation.name, columns) :: ·)

/-- A declared column as an output. -/
def declaredOutput (relation column : String) (aliasName : Option String) (type : ColumnType) :
    OutputField :=
  ⟨column, relation, type.typeName, aliasName, type.nullable, type.array⟩

/-- A column that is not declared, as an output. -/
def undeclaredOutput (relation column : String) (aliasName : Option String) : OutputField :=
  ⟨column, relation, unknownType, aliasName, false, false⟩

/-- The finding that a column is not declared. -/
def unknownColumn (relation column : String) : Diagnostic :=
  .ofMessage .sqlUnknownColumn .warn <|
    if relation.isEmpty then s!"Column `{column}` has no relation to resolve against"
    else s!"Unknown column `{column}` on relation `{relation}`"

/-- All columns of all relations, in order. -/
def expandWildcard (tables : List (String × Columns)) : List OutputField :=
  tables.flatMap fun (relation, columns) =>
    columns.entries.map fun (column, type) => declaredOutput relation column none type

/-- The output of a single column, and the finding when it is not declared. -/
def resolveColumn (tables : List (String × Columns)) (field : Field) :
    OutputField × List Diagnostic :=
  let relation := (tables.head?.map Prod.fst).getD ""
  match tables.head?.bind fun table => table.2.get? field.name with
  | some type => (declaredOutput relation field.name field.aliasName type, [])
  | none =>
      (undeclaredOutput relation field.name field.aliasName, [unknownColumn relation field.name])

/-- The outputs of one field with their findings. -/
def resolveField (tables : List (String × Columns)) (field : Field) :
    List OutputField × List Diagnostic :=
  match field.kind with
  | .wildcard => (expandWildcard tables, [])
  | .column =>
      let (output, findings) := resolveColumn tables field
      ([output], findings)

/-- The outputs of a statement and the findings, field by field. Nothing is looked up in a statement
that names an undeclared relation. -/
def resolve (schema : Schema) (shape : StatementShape) :
    Except UnknownRelation (List OutputField × List Diagnostic) :=
  (tables schema shape.relations).map fun tables =>
    let resolved := shape.fields.map (resolveField tables)
    (resolved.flatMap Prod.fst, resolved.flatMap Prod.snd)

end TypedSql.Resolve
