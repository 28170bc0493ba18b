import TypedSql.Grammar.Definition

/-!
# Reading alterations

Commands that change the objects of a database. Of a command only the name of its kind is kept.
-/

namespace TypedSql.Grammar

/-! ## Columns -/

/-- Reads how a column is altered. -/
def columnChange (inner : Level) : Parse Unit := do
  let d := inner.dialect
  if ← keywords? ["SET", "NOT", "NULL"] then return
  if ← keywords? ["DROP", "NOT", "NULL"] then return
  if ← keywords? ["SET", "DEFAULT"] then
    discard <| inner.expr 0
    return
  if ← keywords? ["DROP", "DEFAULT"] then return
  let typed ←
    if ← keywords? ["SET", "DATA", "TYPE"] then pure true
    else if d == .postgres then keyword? "TYPE"
    else pure false
  if typed then
    discard <| typeName d
    if d == .postgres then discard <| after? "USING" (inner.expr 0)
  else if ← keywords? ["ADD", "GENERATED"] then
    unless ← keyword? "ALWAYS" do discard <| keywords? ["BY", "DEFAULT"]
    expectKeywords ["AS", "IDENTITY"]
    sequenceGroup
  else if d == .postgres then
    failHere "SET/DROP NOT NULL, SET DEFAULT, SET DATA TYPE, or ADD GENERATED after ALTER COLUMN"
  else failHere "SET/DROP NOT NULL, SET DEFAULT, or SET DATA TYPE after ALTER COLUMN"

/-- Reads the place of a column among the others, if it is said. -/
def columnPosition (d : Dialect) : Parse Unit := do
  if d == .mysql || d == .ansi then
    unless ← keyword? "FIRST" do discard <| after? "AFTER" name

/-- Reads a column with the type and the options that it gets. -/
def changedColumn (inner : Level) : Parse Unit := do
  discard name
  discard <| typeName inner.dialect
  columnOptions inner
  columnPosition inner.dialect

/-! ## Partitions and projections -/

/-- Reads expressions in parentheses. -/
def exprGroup (inner : Level) : Parse Unit := discard <| parens (exprs inner)

/-- Reads a part of a table, or a partition told by an expression. -/
def partOrPartition (inner : Level) : Parse Unit := do
  discard <| expectOneOf ["PART", "PARTITION"]
  discard <| inner.expr 0

/-- Reads a part that is frozen or no longer frozen, with the name it goes by. -/
def frozenPart (inner : Level) : Parse Unit := do
  partOrPartition inner
  if ← keyword? "WITH" then
    expectKeyword "NAME"
    discard name

/-- Reads a projection to be added, after the word `PROJECTION`. -/
def addProjection (inner : Level) : Parse Unit := do
  discard ifNotExists?
  discard name
  parens do
    expectKeyword "SELECT"
    discard <| selectList inner
    discard <| grouping inner
    discard <| rowOrder inner

/-- Reads a projection whose rows are made or removed. -/
def projectionRows : Parse Unit := do
  discard ifExists?
  discard name
  discard <| afterAll? ["IN", "PARTITION"] name

/-! ## Tables -/

/-- Reads what is added to a table, after the word `ADD`. -/
def tableAddition (inner : Level) : Parse Unit := do
  let d := inner.dialect
  if ← tableConstraint? inner then return
  if d == .ansi then
    if ← keyword? "PROJECTION" then
      addProjection inner
      return
  discard ifNotExists?
  let partitions ← many (after? "PARTITION" (exprGroup inner))
  if partitions.isEmpty then
    discard <| keyword? "COLUMN"
    if d == .postgres || d == .bigquery || d == .ansi then discard ifNotExists?
    columnDefinition inner
    columnPosition d

/-- Reads what is dropped from a table, after the word `DROP`. -/
def tableRemoval (inner : Level) : Parse Unit := do
  let d := inner.dialect
  if ← keywords? ["IF", "EXISTS", "PARTITION"] then exprGroup inner
  else if ← keyword? "PARTITION" then exprGroup inner
  else if ← keyword? "CONSTRAINT" then
    discard ifExists?
    discard name
    discard <| keyword? "CASCADE"
  else if ← known? (d == .mysql || d == .ansi) ["PRIMARY", "KEY"] then return
  else if ← known? (d == .ansi) ["PROJECTION"] then
    discard ifExists?
    discard name
  else if ← keywords? ["CLUSTERING", "KEY"] then return
  else
    discard <| keyword? "COLUMN"
    discard ifExists?
    discard name
    discard <| keyword? "CASCADE"

/-- Reads a new name in a table, after the word `RENAME`. -/
def tableRenaming (d : Dialect) : Parse Unit := do
  let ofConstraint ← if d == .postgres then keyword? "CONSTRAINT" else pure false
  if ofConstraint then
    discard name
    expectKeyword "TO"
    discard name
  else if ← keyword? "TO" then discard <| objectNameIn d
  else
    discard <| keyword? "COLUMN"
    discard name
    expectKeyword "TO"
    discard name

/-- Reads what a table no longer does, after the word `DISABLE`. -/
def tableDisabling : Parse Unit := do
  if ← keywords? ["ROW", "LEVEL", "SECURITY"] then return
  if (← oneOf? ["RULE", "TRIGGER"]).isSome then discard name
  else failHere "ROW LEVEL SECURITY, RULE, or TRIGGER after DISABLE"

/-- Reads what a table does from now on, after the word `ENABLE`. -/
def tableEnabling : Parse Unit := do
  if ← keywords? ["ROW", "LEVEL", "SECURITY"] then return
  for words in [["ALWAYS", "RULE"], ["ALWAYS", "TRIGGER"], ["REPLICA", "RULE"],
      ["REPLICA", "TRIGGER"], ["RULE"], ["TRIGGER"]] do
    if ← keywords? words then
      discard name
      return
  failHere "ALWAYS, REPLICA, ROW LEVEL SECURITY, RULE, or TRIGGER after ENABLE"

/-- Reads partitions that get other values, after the word `PARTITION`. -/
def partitionRenaming (inner : Level) : Parse Unit := do
  exprGroup inner
  expectKeyword "RENAME"
  expectKeywords ["TO", "PARTITION"]
  exprGroup inner

/-- Reads a change of a table that some dialects have, and tells whether one is next. -/
def specialTableChange? (inner : Level) : Parse Bool := do
  let d := inner.dialect
  if d == .postgres || d == .ansi then
    if ← keywords? ["OWNER", "TO"] then
      owner
      return true
  if d == .ansi then
    if (← oneOf? ["ATTACH", "DETACH"]).isSome then
      partOrPartition inner
      return true
    if (← oneOf? ["FREEZE", "UNFREEZE"]).isSome then
      frozenPart inner
      return true
  if ← keywords? ["CLUSTER", "BY"] then
    exprGroup inner
    return true
  if ← keywords? ["SUSPEND", "RECLUSTER"] then return true
  if ← keywords? ["RESUME", "RECLUSTER"] then return true
  options? inner ["SET", "TBLPROPERTIES"]

/-- Reads one change of a table. -/
def tableChange (inner : Level) : Parse Unit := do
  let d := inner.dialect
  if ← keyword? "ADD" then tableAddition inner
  else if ← keyword? "RENAME" then tableRenaming d
  else if ← keyword? "DISABLE" then tableDisabling
  else if ← keyword? "ENABLE" then tableEnabling
  else if ← known? (d == .ansi) ["CLEAR", "PROJECTION"] then projectionRows
  else if ← known? (d == .ansi) ["MATERIALIZE", "PROJECTION"] then projectionRows
  else if ← keyword? "DROP" then tableRemoval inner
  else if ← keyword? "PARTITION" then partitionRenaming inner
  else if ← keyword? "CHANGE" then
    discard <| keyword? "COLUMN"
    discard name
    changedColumn inner
  else if ← keyword? "MODIFY" then
    discard <| keyword? "COLUMN"
    changedColumn inner
  else if ← keyword? "ALTER" then
    discard <| keyword? "COLUMN"
    discard name
    columnChange inner
  else if ← keyword? "SWAP" then
    expectKeyword "WITH"
    discard <| objectNameIn d
  else
    unless ← specialTableChange? inner do
      failHere "ADD, RENAME, PARTITION, SWAP, DROP, or SET TBLPROPERTIES after ALTER TABLE"

/-- Reads a table to be altered, after the word `TABLE`. -/
def alterTable (inner : Level) : Parse String := do
  let d := inner.dialect
  discard ifExists?
  discard <| keyword? "ONLY"
  discard <| objectNameIn d
  onCluster
  discard <| commaSeparated (tableChange inner)
  if ← keyword? "LOCATION" then discard name
  else discard <| afterAll? ["SET", "LOCATION"] name
  return "alter_table"

/-! ## Altering -/

/-- Reads a view to be altered, after the word `VIEW`. -/
def alterView (inner : Level) : Parse String := do
  discard <| objectNameIn inner.dialect
  discard <| names? false
  discard <| options? inner ["WITH"]
  expectKeyword "AS"
  discard inner.query
  return "alter_view"

/-- Reads an index to be altered, after the word `INDEX`. -/
def alterIndex (d : Dialect) : Parse String := do
  discard <| objectNameIn d
  unless ← keyword? "RENAME" do failHere "RENAME after ALTER INDEX"
  unless ← keyword? "TO" do failHere "TO after RENAME"
  discard <| objectNameIn d
  return "alter_index"

/-- Reads an object to be altered, after the word `ALTER`. -/
def alter (inner : Level) : Parse String := do
  match ← expectOneOf ["VIEW", "TABLE", "INDEX", "ROLE", "POLICY"] with
  | "VIEW" => alterView inner
  | "TABLE" => alterTable inner
  | "INDEX" => alterIndex inner.dialect
  | "ROLE" => (fun _ => "alter_role") <$> alterRole inner
  | _ => (fun _ => "alter_policy") <$> alterPolicy inner

end TypedSql.Grammar
