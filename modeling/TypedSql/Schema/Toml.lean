import TypedSql.Schema.Json
import TypedSql.Toml.Decode

/-!
# Schemas as TOML

A schema is a document with one table per relation, in either of the two forms of a relation.
-/

namespace TypedSql

namespace Toml

mutual

/-- What an item means for the columns of a relation. A date has a single part, which fits no
column. -/
def Item.toJson : Item → Json
  | .text value _ => .text value
  | .integer value _ => .integer value
  | .decimal shown _ => .decimal shown
  | .flag value _ => .flag value
  | .dateTime _ => .object [("date", .null)]
  | .list items _ | .tables items _ => .list (itemsToJson items)
  | .braced _ entries _ | .table _ entries _ => .object (entriesToJson entries)

/-- Items of a list. -/
def itemsToJson : List Item → List Json
  | [] => []
  | item :: items => item.toJson :: itemsToJson items

/-- Entries of a table. -/
def entriesToJson : List (Key × Item) → List (String × Json)
  | [] => []
  | (key, item) :: entries => (key.name, item.toJson) :: entriesToJson entries

end

end Toml

namespace Schema

/-- Adds the relation of an entry. -/
def withEntry (relations : Keyed Columns) (entry : Toml.Key × Toml.Item) :
    Except Toml.Misplaced (Keyed Columns) := do
  let decode (item : Toml.Item) : Except Toml.Misplaced Columns :=
    match Columns.ofJson? item.toJson with
    | some columns => .ok columns
    | none => .error ⟨.mismatch noRelation, none⟩
  return relations.insert entry.1.name (← Toml.Decoder.ofEntry decode entry)

/-- Reads a schema from a text. An error comes as the text in which it is shown. -/
def ofTomlText (text : String) : Except String Schema := do
  let table ← Toml.ofText text
  let relations ←
    (table.entries.foldlM withEntry Keyed.empty).mapError fun e => e.report text.toList
  return ⟨relations⟩

end Schema

end TypedSql
