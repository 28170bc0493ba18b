import TypedSql.Batch

/-!
# Collectors

A collector takes one statement after another and holds all that it has found. It goes through a
statement part by part, and a part that is passed over leaves its finding at once, after those that
are held already. A failure ends the statement; what is held by then stays.
-/

namespace TypedSql

/-- A step of a collector, which holds the findings so far. -/
abbrev Collecting (ε : Type) := ExceptT ε (StateM (List Diagnostic))

namespace Collecting

variable {ε α β : Type}

/-- Holds one more finding. -/
def hold (d : Diagnostic) : Collecting ε Unit :=
  modify fun held => held ++ [d]

/-- What there is after a step: its result, and what is held then. -/
def after (x : Collecting ε α) (held : List Diagnostic) : Batch.Progress ε α :=
  ⟨(x.run.run held).1, (x.run.run held).2⟩

/-- Takes a step for each input with one and the same collector, whatever came of those before. -/
def inTurn (step : α → Collecting ε β) (held : List Diagnostic) :
    List α → List (Batch.Progress ε β)
  | [] => []
  | x :: rest => (step x).after held :: inTurn step ((step x).after held).findings rest

end Collecting

open Collecting

/-! ## Shapes -/

namespace Shape

/-- A table comes after the relations so far, or leaves a finding. -/
def takeTable (relations : List Relation) (t : TableFactor) :
    Collecting Unsupported (List Relation) :=
  match relation? t with
  | some relation => return relations ++ [relation]
  | none => do
      hold (skipped "table reference" t.text)
      return relations

/-- A table comes before the tables that are joined to it. -/
def takeJoined (relations : List Relation) (t : TableWithJoins) :
    Collecting Unsupported (List Relation) := do
  let relations ← takeTable relations t.first
  t.joins.foldlM (fun relations join => takeTable relations join.right) relations

/-- An item comes after the fields so far, or leaves a finding. -/
def takeItem (fields : List Field) (item : SelectItem) : Collecting Unsupported (List Field) :=
  match field? item with
  | some field => return fields ++ [field]
  | none => do
      hold (skipped "projection" item.text)
      return fields

/-- A statement that names tables and returns items: the tables are gone through first. -/
def collectParts (kind : StatementKind) (tables : List TableWithJoins) (items : List SelectItem) :
    Collecting Unsupported StatementShape := do
  let relations ← tables.foldlM takeJoined []
  let fields ← items.foldlM takeItem []
  return ⟨kind, fields, relations⟩

/-- The shape of a statement, by a collector. -/
def collect (sql : String) : Statement → Collecting Unsupported StatementShape
  | .query q =>
      match leadingSelect q.body with
      | some s => collectParts .select s.sources s.items
      | none => do
          hold (skipped "query body" q.body.text)
          return ⟨.select, [], []⟩
  | .insert (.mk _ target aliasName _ conflict returning) => do
      let fields ← (returning.getD []).foldlM takeItem []
      return ⟨if conflict.isSome then .upsert else .insert, fields,
        [⟨plainName target, aliasName.map Word.value⟩]⟩
  | .update (.mk _ target _ returning) => collectParts .update [target] (returning.getD [])
  | .delete d => collectParts .delete d.targets (d.returning.getD [])
  | .command kind => throw ⟨kind, sql⟩

end Shape

/-! ## Outputs -/

namespace Resolve

/-- A relation with its columns comes after those so far. -/
def takeRelation (schema : Schema) (tables : List (String × Columns)) (relation : Relation) :
    Collecting UnknownRelation (List (String × Columns)) :=
  match schema.table? relation.name with
  | some columns => return tables ++ [(relation.name, columns)]
  | none => throw ⟨relation.name⟩

/-- The outputs of a field come after those so far. A column that is not declared leaves a
finding. -/
def takeField (tables : List (String × Columns)) (outputs : List OutputField) (field : Field) :
    Collecting UnknownRelation (List OutputField) :=
  match field.kind with
  | .wildcard => return outputs ++ expandWildcard tables
  | .column =>
      let relation := (tables.head?.map Prod.fst).getD ""
      match tables.head?.bind fun table => table.2.get? field.name with
      | some type =>
          return outputs ++ [declaredOutput relation field.name field.aliasName type]
      | none => do
          hold (unknownColumn relation field.name)
          return outputs ++ [undeclaredOutput relation field.name field.aliasName]

/-- The outputs of a statement, by a collector: its relations are looked up before any field. -/
def collect (schema : Schema) (shape : StatementShape) :
    Collecting UnknownRelation (List OutputField) := do
  let tables ← shape.relations.foldlM (takeRelation schema) []
  shape.fields.foldlM (takeField tables) []

end Resolve

end TypedSql
