import TypedSql.Contract
import TypedSql.Statement

/-!
# The shape of a statement

A statement's shape is its kind with the relations and fields it names. Only named tables, single
columns and a plain star have a place in a shape; anything else is passed over with a finding.
-/

namespace TypedSql.Shape

/-- A statement that has no shape, with its text. -/
structure Unsupported where
  kind : String
  sql : String
  deriving DecidableEq, Repr, Inhabited

/-- The finding that some part of a statement was passed over. -/
def skipped (what text : String) : Diagnostic :=
  .ofMessage .sqlUnsupportedShape .info s!"Skipped unsupported {what} `{text}`"

/-- The parts of a name with dots between, without their quotes. -/
def plainName (names : List Word) : String := ".".intercalate (names.map Word.value)

/-- The select that a query body starts with: an operator between bodies hands on to its left
side. -/
def leadingSelect : QueryBody → Option Select
  | .select s => some s
  | .query (.mk _ body _) => leadingSelect body
  | .combined left _ _ => leadingSelect left
  | _ => none

/-! ## Relations -/

/-- The tables of a list with the tables joined to them, in source order. -/
def factors (tables : List TableWithJoins) : List TableFactor :=
  tables.flatMap fun t => t.first :: t.joins.map Join.right

/-- The relation that a table reference names. -/
def relation? : TableFactor → Option Relation
  | .named names _ _ _ tableAlias _ => some ⟨plainName names, tableAlias.map fun a => a.name.value⟩
  | _ => none

/-- The relations that tables name. -/
def relations (tables : List TableWithJoins) : List Relation :=
  (factors tables).filterMap relation?

/-- The findings about tables that name no relation. -/
def skippedTables (tables : List TableWithJoins) : List Diagnostic :=
  ((factors tables).filter fun t => (relation? t).isNone).map fun t =>
    skipped "table reference" t.text

/-! ## Fields -/

/-- The field that an item stands for. -/
def field? : SelectItem → Option Field
  | .wildcard _ => some .wildcard
  | .plain (.name w) => some (.column w.value)
  | .aliased (.name w) aliasName => some (.aliased w.value aliasName.value)
  | _ => none

/-- The fields that items stand for. -/
def fields (items : List SelectItem) : List Field := items.filterMap field?

/-- The findings about items that stand for no field. -/
def skippedItems (items : List SelectItem) : List Diagnostic :=
  (items.filter fun item => (field? item).isNone).map fun item => skipped "projection" item.text

/-! ## Statements -/

/-- A shape with the findings about the parts that were passed over. -/
structure Found where
  shape : StatementShape
  findings : List Diagnostic
  deriving DecidableEq, Repr, Inhabited

/-- The shape of a statement that names tables and returns items. -/
def ofParts (kind : StatementKind) (tables : List TableWithJoins) (items : List SelectItem) :
    Found :=
  ⟨⟨kind, fields items, relations tables⟩, skippedTables tables ++ skippedItems items⟩

/-- The shape of a query. -/
def ofQuery (q : Query) : Found :=
  match leadingSelect q.body with
  | some s => ofParts .select s.sources s.items
  | none => ⟨⟨.select, [], []⟩, [skipped "query body" q.body.text]⟩

/-- The shape of an insert, which is an upsert when it says what to do on a conflict. -/
def ofInsert : Insert → Found
  | .mk _ target aliasName _ conflict returning =>
      let items := returning.getD []
      ⟨⟨if conflict.isSome then .upsert else .insert, fields items,
        [⟨plainName target, aliasName.map Word.value⟩]⟩, skippedItems items⟩

/-- The shape of an update. -/
def ofUpdate : Update → Found
  | .mk _ target _ returning => ofParts .update [target] (returning.getD [])

/-- The shape of a statement. A command has none, and its error quotes the text. -/
def ofStatement (sql : String) : Statement → Except Unsupported Found
  | .query q => .ok (ofQuery q)
  | .insert i => .ok (ofInsert i)
  | .update u => .ok (ofUpdate u)
  | .delete d => .ok (ofParts .delete d.targets (d.returning.getD []))
  | .command kind => .error ⟨kind, sql⟩

end TypedSql.Shape
