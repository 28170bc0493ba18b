import TypedSql.Json.Records

/-!
# Schemas as JSON

A schema is an object of relations. A relation is an object of columns, or a list of columns that
name themselves; which of the two it is decides only after the whole relation has been read.
-/

namespace TypedSql

namespace Columns

/-- The columns given by name. -/
def ofEntries (entries : List (String × Json)) : Except Mismatch (List (String × ColumnType)) :=
  entries.mapM fun (name, json) => do return (name, ← ColumnType.codec.ofJson json)

/-- A column that names itself: an object with a name beside the keys of its type. -/
def ofItem : Json → Except Mismatch (String × ColumnType)
  | .object entries => do
      let others := entries.filter fun entry => entry.1 != "name"
      match entries.filter fun entry => entry.1 == "name" with
      | [] => .error (.missingField "name")
      | [(_, json)] => do
          let name ← Json.Codec.text.ofJson json
          return (name, ← ColumnType.codec.ofJson (.object others))
      | _ => .error (.duplicateField "name")
  | json => Json.refused "struct NamedSchemaField" json

/-- The columns of a relation in either form. A repeated column keeps its first place and has its
last type. -/
def ofJson? (json : Json) : Option Columns :=
  let columns := match json with
    | .object entries => ofEntries entries
    | .list items => items.mapM ofItem
    | json => Json.refused "a relation" json
  columns.toOption.map Keyed.ofList

end Columns

namespace Schema

open Json Json.Reader

/-- The mismatch of a relation in neither form. -/
def noRelation : Mismatch := .noVariant "TableDefinition"

/-- The form of a relation is decided inside the schema, which leaves one level less for it. -/
def relationDepth : Nat := maxDepth - 1

/-- One relation, after its name. A relation that is given again keeps its place. -/
def readRelation (name : String) (relations : Keyed Columns) : Reader (Keyed Columns) := do
  colon
  match Columns.ofJson? (← value relationDepth) with
  | some columns => return relations.insert name columns
  | none => failUnplaced (.mismatch noRelation)

/-- The relations of a schema. -/
def read : Reader Schema := do
  match ← peekValue with
  | '\x7b' => return ⟨← inObject (entries readRelation Keyed.empty)⟩
  | _ => refuse "a map"

/-- Reads a schema from a text. -/
def ofJsonText (text : String) : Except TextError Schema := readAll read text

/-- The form in which a schema is written. -/
def toJson (s : Schema) : Json :=
  .object (s.relations.entries.map fun (name, columns) =>
    (name, .object (columns.entries.map fun (column, type) =>
      (column, ColumnType.codec.toJson type))))

end Schema

end TypedSql
