import TypedSql.Grammar.Item
import TypedSql.Grammar.Table

/-!
# Reading changes

Inserts, updates and deletes.
-/

namespace TypedSql.Grammar

/-- Reads what a change does on a conflict, where it is said before the target. -/
def resolution? : Parse (Option String) := do
  for word in ["REPLACE", "ROLLBACK", "ABORT", "FAIL", "IGNORE"] do
    if ← keywords? ["OR", word] then return some ("OR " ++ word)
  if ← keyword? "REPLACE" then return some "OR REPLACE"
  return none

/-- Reads the assignment of a value to a column, or to several. -/
def assignment (inner : Level) : Parse (List Piece) := do
  let d := inner.dialect
  let target ←
    if ← atSymbol .leftParen then do
      let columns ← parens (commaSeparated (objectNameIn d))
      pure ("(" ++ ", ".intercalate (columns.map dotted) ++ ")")
    else dotted <$> objectNameIn d
  expectSymbol .equal
  return [.text (target ++ " = "), .expr (← inner.expr 0)]

/-- Reads assignments. -/
def assignments (inner : Level) : Parse (List Piece) :=
  listedPieces <$> commaSeparated (assignment inner)

/-- Reads a condition on rows, if it is there. -/
def where? (inner : Level) : Parse (Option Expr) := after? "WHERE" (inner.expr 0)

/-! ## Inserts -/

/-- Reads what is done when a row is there already, if it is said. -/
def conflict? (inner : Level) : Parse (Option (List Piece)) := do
  unless ← keyword? "ON" do return none
  if ← keyword? "CONFLICT" then
    let target ←
      if ← keywords? ["ON", "CONSTRAINT"] then do
        pure (" ON CONSTRAINT " ++ dotted (← objectNameIn inner.dialect))
      else if ← atSymbol .leftParen then do
        pure ("(" ++ listed (← nameGroup) ++ ")")
      else pure ""
    expectKeyword "DO"
    if ← keyword? "NOTHING" then return some [.text (" ON CONFLICT" ++ target ++ " DO NOTHING")]
    expectKeyword "UPDATE"
    expectKeyword "SET"
    let changes ← assignments inner
    let condition ← where? inner
    return some (.text (" ON CONFLICT" ++ target ++ " DO UPDATE SET ") :: changes ++
      optionalExpr " WHERE " condition)
  else
    expectKeyword "DUPLICATE"
    expectKeyword "KEY"
    expectKeyword "UPDATE"
    return some (.text " ON DUPLICATE KEY UPDATE " :: (← assignments inner))

/-- Reads the columns and the rows of an insert. -/
def insertRows (inner : Level) : Parse (List Piece) := do
  let d := inner.dialect
  if ← keywords? ["DEFAULT", "VALUES"] then return [.text "DEFAULT VALUES"]
  let queryNext :=
    (← peekToken 0) == some (.symbol .leftParen) && keywordOf (← peekToken 1) == "SELECT"
  let opening ←
    if queryNext then pure []
    else do
      let columns ← names? (d == .mysql)
      let partition ← after? "PARTITION" (parens (exprs inner))
      let columns := if columns.isEmpty then "" else "(" ++ listed columns ++ ") "
      pure (.text columns :: optionalPieces "PARTITION (" partition ") ")
  return opening ++ [.query (← inner.query)]

/-- Reads the alias of the inserted row, if there is one. -/
def rowAlias? (d : Dialect) : Parse (List Piece) := do
  if (d == .mysql || d == .ansi) && (← atKeywords ["AS"]) then
    skip
    let aliasName ← objectNameIn d
    let columns ← names? false
    let columns := if columns.isEmpty then "" else " (" ++ listed columns ++ ")"
    return [.text (" AS " ++ dotted aliasName ++ columns)]
  else return []

/-- A word with a blank before it, where a flag is set. -/
def flagText (set : Bool) (word : String) : String := if set then " " ++ word else ""

/-- What an insert puts its rows into. -/
inductive InsertForm
  | table (i : Insert)
  | directory (pieces : List Piece)

/-- Reads the format of a file. -/
def fileFormat : Parse String := do
  match ← oneOf? ["AVRO", "JSONFILE", "ORC", "PARQUET", "RCFILE", "SEQUENCEFILE", "TEXTFILE"] with
  | some word => return word
  | none => failNext "fileformat"

/-- Reads the directory that an insert writes to, after the word `DIRECTORY`. -/
def directoryInsert (inner : Level) (overwrite isLocal : Bool) : Parse (List Piece) := do
  let path ← stringLiteral inner.dialect
  let format ← afterAll? ["STORED", "AS"] fileFormat
  let format := match format with
    | some word => " STORED AS " ++ word
    | none => ""
  return [.text ("INSERT" ++ flagText overwrite "OVERWRITE" ++ flagText isLocal "LOCAL" ++
    " DIRECTORY '" ++ path ++ "'" ++ format ++ " "), .query (← inner.query)]

/-- Reads an insert after its first keyword. -/
def insert (inner : Level) : Parse InsertForm := do
  let d := inner.dialect
  let resolution ← resolution?
  let priority ←
    if d == .mysql || d == .ansi then oneOf? ["LOW_PRIORITY", "DELAYED", "HIGH_PRIORITY"]
    else pure none
  let ignore ← if d == .mysql || d == .ansi then keyword? "IGNORE" else pure false
  let overwrite ← keyword? "OVERWRITE"
  let into ← keyword? "INTO"
  let isLocal ← keyword? "LOCAL"
  if ← keyword? "DIRECTORY" then
    return .directory (← directoryInsert inner overwrite isLocal)
  let table ← keyword? "TABLE"
  let target ← objectNameIn d
  let aliasName ← if d == .postgres then after? "AS" name else pure none
  let rows ← insertRows inner
  let rowAlias ← rowAlias? d
  let conflict ← conflict? inner
  let returning ← returning? inner
  let opening := match resolution with
    | some words => "INSERT " ++ words ++ " INTO"
    | none =>
        let priority := match priority with
          | some word => " " ++ word
          | none => ""
        "INSERT" ++ priority ++ flagText ignore "IGNORE" ++ flagText overwrite "OVERWRITE" ++
          flagText into "INTO" ++ flagText table "TABLE"
  return .table (.mk opening target aliasName (rows ++ rowAlias) conflict returning)

/-! ## Updates -/

/-- Reads an update after its first keyword. -/
def update (inner : Level) : Parse Update := do
  let opening := match ← resolution? with
    | some words => "UPDATE " ++ words
    | none => "UPDATE"
  let target ← tableWithJoins inner
  expectKeyword "SET"
  let changes ← assignments inner
  let source ←
    if ← keyword? "FROM" then
      if inner.dialect == .mysql then pure none else some <$> tableWithJoins inner
    else pure none
  let condition ← where? inner
  let returning ← returning? inner
  let source := match source with
    | some t => [Piece.text " FROM ", .table t]
    | none => []
  return .mk opening target (.text " SET " :: changes ++ source ++
    optionalExpr " WHERE " condition) returning

/-! ## Deletes -/

/-- Reads a limit on rows after its keyword; all rows are no limit. -/
def limit (inner : Level) : Parse (Option Expr) := do
  if ← keyword? "ALL" then return none
  else some <$> inner.expr 0

/-- Reads what comes before the targets of a delete. -/
def deleteOpening (d : Dialect) : Parse Unit := do
  if ← keyword? "FROM" then return
  if d == .bigquery || d == .ansi then return
  discard <| commaSeparated (objectNameIn d)
  expectKeyword "FROM"

/-- Reads a delete after its first keyword. -/
def delete (inner : Level) : Parse Delete := do
  deleteOpening inner.dialect
  let targets ← commaSeparated (tableWithJoins inner)
  let others ← after? "USING" (commaSeparated (tableWithJoins inner))
  let condition ← where? inner
  let returning ← returning? inner
  let order ← afterAll? ["ORDER", "BY"] (orderItems inner)
  let rows ← after? "LIMIT" (limit inner)
  return {
    targets
    returning
    clauses := (others.getD []).map .table ++ optionalExpr " WHERE " condition ++
      optionalPieces " ORDER BY " order "" ++ optionalExpr " LIMIT " (rows.getD none) }

end TypedSql.Grammar
