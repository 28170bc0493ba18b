import TypedSql.Grammar.Role
import TypedSql.Grammar.Routine

/-!
# Reading definitions

Commands that create and drop the objects of a database. Of a command only the name of its kind is
kept; its parts are read to tell whether it is well formed and where it ends.
-/

namespace TypedSql.Grammar

/-! ## Tables -/

/-- Reads where the rows of a table are split and sorted, if it is said. -/
def buckets (inner : Level) : Parse Unit := do
  unless inner.dialect == .ansi && (← keywords? ["CLUSTERED", "BY"]) do return
  discard nameGroup
  discard <| afterAll? ["SORTED", "BY"] (parens (orderItems inner))
  expectKeyword "INTO"
  discard numberConstant
  expectKeyword "BUCKETS"

/-- Reads a mark that parts the values in a file, if one is next. The first word of a mark is taken
even where no mark follows. -/
def delimiterMark? : Parse (Option Unit) := do
  let marked (words : List String) : Parse (Option Unit) := afterAll? words (discard name)
  match ← oneOf? ["FIELDS", "COLLECTION", "MAP", "LINES", "NULL"] with
  | some "FIELDS" =>
      match ← marked ["TERMINATED", "BY"] with
      | some () =>
          discard <| marked ["ESCAPED", "BY"]
          return some ()
      | none => return none
  | some "COLLECTION" => marked ["ITEMS", "TERMINATED", "BY"]
  | some "MAP" => marked ["KEYS", "TERMINATED", "BY"]
  | some "LINES" => marked ["TERMINATED", "BY"]
  | some _ => marked ["DEFINED", "AS"]
  | none => return none

/-- Reads how a table is kept in files, a clause at a time, if one is next. -/
def storageClause? (inner : Level) : Parse (Option Unit) := do
  let d := inner.dialect
  if ← keyword? "ROW" then
    expectKeyword "FORMAT"
    if ← keyword? "SERDE" then discard <| stringLiteral d
    else if ← keyword? "DELIMITED" then discard <| many delimiterMark?
    else discard <| many delimiterMark?
    return some ()
  else if ← keyword? "STORED" then
    expectKeyword "AS"
    if ← keyword? "INPUTFORMAT" then
      discard <| inner.expr 0
      expectKeyword "OUTPUTFORMAT"
      discard <| inner.expr 0
    else discard fileFormat
    return some ()
  else if ← keyword? "LOCATION" then
    discard <| stringLiteral d
    return some ()
  else if ← options? inner ["WITH", "SERDEPROPERTIES"] then return some ()
  else return none

/-- Reads how a table is kept in files. -/
def storage (inner : Level) : Parse Unit := discard <| many (storageClause? inner)

/-- Reads the columns that part the rows of a table, if they are there. -/
def partitionColumns (inner : Level) : Parse Unit :=
  discard <| afterAll? ["PARTITIONED", "BY"] (parens (commaSeparated (columnDefinition inner)))

/-- Reads a word that has to be next. -/
def anyWord : Parse Unit := do
  let found ← next
  match tokenOf found with
  | some (.word _) => return
  | _ => unexpected "identifier" found

/-- Reads the engine of a table, if it is said. -/
def tableEngine : Parse Unit := do
  unless ← keyword? "ENGINE" do return
  expectSymbol .equal
  anyWord
  if ← atSymbol .leftParen then discard <| parens (commaSeparated name)

/-- Reads the partition, the clustering and the options of a table, if they are there. -/
def tableLayout (inner : Level) : Parse Unit := do
  let d := inner.dialect
  if d == .bigquery || d == .postgres || d == .ansi then
    discard <| afterAll? ["PARTITION", "BY"] (inner.expr 0)
  if d == .bigquery || d == .ansi then
    discard <| afterAll? ["CLUSTER", "BY"] (commaSeparated name)
    discard <| options? inner ["OPTIONS"]

/-- Reads a setting of a table, if it is there: keywords, a sign and a word. -/
def tableSetting (words : List String) : Parse Unit :=
  discard <| afterAll? words do
    expectSymbol .equal
    anyWord

/-- Reads the keys of a table that the rows are kept by, if they are said. -/
def tableKeys (inner : Level) : Parse Unit := do
  if inner.dialect == .ansi then
    discard <| afterAll? ["PRIMARY", "KEY"] (inner.expr 0)
  if ← keywords? ["ORDER", "BY"] then
    if ← atSymbol .leftParen then
      discard <| parens (commaSeparatedOrNone (inner.expr 0) .rightParen)
    else discard <| inner.expr 0

/-- Takes what happens to the rows at the end of a transaction, if it is said. -/
def onCommit : Parse Unit := do
  for words in [["DELETE", "ROWS"], ["PRESERVE", "ROWS"], ["DROP"]] do
    if ← keywords? ("ON" :: "COMMIT" :: words) then return

/-- Reads a table to be created, after the word `TABLE`. -/
def createTable (inner : Level) : Parse String := do
  let d := inner.dialect
  discard ifNotExists?
  discard <| tableName d
  onCluster
  if (← oneOf? ["LIKE", "ILIKE"]).isSome then discard <| attempt (tableName d)
  discard <| after? "CLONE" (attempt (tableName d))
  tableGroup inner
  discard <| keywords? ["WITHOUT", "ROWID"]
  partitionColumns inner
  buckets inner
  storage inner
  discard <| options? inner ["WITH"]
  discard <| options? inner ["TBLPROPERTIES"]
  tableEngine
  if ← keyword? "AUTO_INCREMENT" then
    discard <| symbol? .equal
    discard <| countIn 32
  tableKeys inner
  tableLayout inner
  tableSetting ["DEFAULT", "CHARSET"]
  tableSetting ["COLLATE"]
  onCommit
  discard <| keyword? "STRICT"
  if ← keyword? "COMMENT" then
    discard <| symbol? .equal
    quotedText "comment"
  if ← keyword? "AS" then discard inner.query
  else if d == .mysql && (← atKeywords ["SELECT"]) then discard inner.query
  return "create_table"

/-- Reads a table in files of another system to be created, after the word `EXTERNAL`. -/
def createExternalTable (inner : Level) : Parse String := do
  expectKeyword "TABLE"
  discard ifNotExists?
  discard <| objectNameIn inner.dialect
  tableGroup inner
  partitionColumns inner
  storage inner
  discard <| options? inner ["TBLPROPERTIES"]
  return "create_table"

/-- Reads a table with rows that a module makes, after the word `VIRTUAL`. -/
def createVirtualTable (d : Dialect) : Parse String := do
  expectKeyword "TABLE"
  discard ifNotExists?
  discard <| objectNameIn d
  expectKeyword "USING"
  discard name
  discard <| names? false
  return "create_virtual_table"

/-! ## Views -/

/-- Reads a column of a view with its options. -/
def viewColumnOptions (inner : Level) : Parse Unit := do
  let d := inner.dialect
  discard name
  let optioned ←
    if d == .bigquery || d == .ansi then options? inner ["OPTIONS"] else pure false
  if !optioned && d == .ansi then discard <| after? "COMMENT" (quotedText "string")

/-- Reads a view to be created, from the word `VIEW` or the word before it on. -/
def createView (inner : Level) : Parse String := do
  let d := inner.dialect
  discard <| keyword? "MATERIALIZED"
  expectKeyword "VIEW"
  if d == .bigquery || d == .sqlite || d == .ansi then discard ifNotExists?
  discard <| tableName d
  if ← atSymbol .leftParen then
    discard <| parens (commaSeparatedOrNone (viewColumnOptions inner) .rightParen)
  discard <| options? inner ["WITH"]
  if ← keyword? "CLUSTER" then
    expectKeyword "BY"
    discard <| names? false
  if d == .bigquery || d == .ansi then discard <| options? inner ["OPTIONS"]
  if d == .ansi then
    discard <| after? "TO" (objectNameIn d)
    if ← keyword? "COMMENT" then
      expectSymbol .equal
      quotedText "string literal"
  expectKeyword "AS"
  discard inner.query
  if d == .ansi then discard <| keywords? ["WITH", "NO", "SCHEMA", "BINDING"]
  return "create_view"

/-! ## Other objects -/

/-- Reads an index to be created, after the word `INDEX`. -/
def createIndex (inner : Level) : Parse String := do
  let d := inner.dialect
  discard <| keyword? "CONCURRENTLY"
  let conditional ← ifNotExists?
  if conditional || !(← atKeywords ["ON"]) then discard <| objectNameIn d
  expectKeyword "ON"
  discard <| objectNameIn d
  discard <| after? "USING" name
  discard <| parens (orderItems inner)
  discard <| after? "INCLUDE" (parens (commaSeparated name))
  distinctNulls
  if d == .postgres || d == .ansi then discard <| after? "WITH" (parens (exprs inner))
  discard <| where? inner
  return "create_index"

/-- Reads a sequence to be created, after the word `SEQUENCE`. -/
def createSequence (d : Dialect) : Parse String := do
  discard ifNotExists?
  discard <| objectNameIn d
  discard <| after? "AS" (typeName d)
  sequenceOptions
  if ← keywords? ["OWNED", "BY"] then
    unless ← keyword? "NONE" do discard <| objectNameIn d
  return "create_sequence"

/-- Reads the attributes of a type as far as the closing parenthesis. -/
def typeAttributes (d : Dialect) : Nat → Parse Unit
  | 0 => return
  | fuel + 1 => do
      discard name
      discard <| typeName d
      discard <| after? "COLLATE" (objectNameIn d)
      let comma ← symbol? .comma
      if ← symbol? .rightParen then return
      else if comma then typeAttributes d fuel
      else failHere "',' or ')' after attribute definition"

/-- Reads a type to be created, after the word `TYPE`. Only a dialect with enumerations reads the
values of one, and only where no other word stands before the type. -/
def createType (d : Dialect) (enumerates : Bool) : Parse String := do
  discard <| objectNameIn d
  expectKeyword "AS"
  if enumerates && (← atKeywords ["ENUM"]) then
    skip
    unless ← symbol? .leftParen do failHere "'(' after CREATE TYPE AS ENUM"
    discard <| commaSeparatedOrNone name .rightParen
    expectSymbol .rightParen
  else if ← symbol? .leftParen then
    unless ← symbol? .rightParen do typeAttributes d ((← remaining) + 1)
  return "create_type"

/-- Reads an extension to be created, after the word `EXTENSION`. -/
def createExtension : Parse String := do
  discard ifNotExists?
  discard name
  if ← keyword? "WITH" then
    discard <| after? "SCHEMA" name
    discard <| after? "VERSION" name
    discard <| keyword? "CASCADE"
  return "create_extension"

/-- Reads a secret to be created, after the word `SECRET`. Where it is kept is said before its
options or after its name. -/
def createSecret : Parse String := do
  discard ifNotExists?
  unless ← atSymbol .leftParen do
    let place ←
      if ← keyword? "IN" then attempt name
      else do
        discard <| attempt name
        pure none
    if place.isNone then discard <| after? "IN" (attempt name)
  parens do
    expectKeyword "TYPE"
    discard name
    if ← symbol? .comma then
      discard <| commaSeparated do
        discard name
        discard name
  return "create_secret"

/-- Reads a schema to be created, after the word `SCHEMA`. -/
def createSchema (d : Dialect) : Parse String := do
  discard ifNotExists?
  if ← keyword? "AUTHORIZATION" then discard name
  else
    discard <| objectNameIn d
    discard <| after? "AUTHORIZATION" name
  return "create_schema"

/-- Reads a database to be created, after the word `DATABASE`. -/
def createDatabase (d : Dialect) : Parse String := do
  discard ifNotExists?
  discard <| objectNameIn d
  discard <| many do
    if (← oneOf? ["LOCATION", "MANAGEDLOCATION"]).isSome then
      return some (← discard <| stringLiteral d)
    else return none
  return "create_database"

/-! ## Creating -/

/-- Takes the words before an object to be created. The first result tells that it may replace
another, the second that there are no such words. -/
def createWords : Parse (Bool × Bool) := do
  let replaces ← keywords? ["OR", "REPLACE"]
  let alters ← keywords? ["OR", "ALTER"]
  let isLocal ← keyword? "LOCAL"
  let global ← keyword? "GLOBAL"
  let transient ← keyword? "TRANSIENT"
  let temporary := (← oneOf? ["TEMP", "TEMPORARY"]).isSome
  return (replaces, !(replaces || alters || isLocal || global || transient || temporary))

/-- Reads a definition that the dialect has, after its keywords, which are blamed in a dialect that
does not have it. -/
def createIn (known : Bool) (words : List String) (rest : Parse String) : Parse String := do
  skips (words.length - 1)
  if known then
    skip
    rest
  else failHere "an object type after CREATE"

/-- Reads an object that cannot replace another. -/
def createNew (inner : Level) (isBare : Bool) : Parse String := do
  let d := inner.dialect
  if ← keywords? ["UNIQUE", "INDEX"] then return ← createIndex inner
  match ← oneOf? ["EXTENSION", "INDEX", "VIRTUAL", "SCHEMA", "DATABASE", "ROLE", "SEQUENCE", "TYPE",
    "PROCEDURE"] with
  | some "EXTENSION" => createExtension
  | some "INDEX" => createIndex inner
  | some "VIRTUAL" => createVirtualTable d
  | some "SCHEMA" => createSchema d
  | some "DATABASE" => createDatabase d
  | some "ROLE" => (fun _ => "create_role") <$> createRole d
  | some "SEQUENCE" => createSequence d
  | some "TYPE" => createType d (isBare && d == .postgres)
  | some _ => (fun _ => "create_procedure") <$> createProcedure inner
  | none => failHere "an object type after CREATE"

/-- Reads an object to be created, after the word `CREATE`. -/
def create (inner : Level) : Parse String := do
  let d := inner.dialect
  let (replaces, isBare) ← createWords
  let trigger : Parse String := (fun _ => "create_trigger") <$> createTrigger inner
  match ← peekKeyword with
  | "TABLE" =>
      skip
      createTable inner
  | "MATERIALIZED" | "VIEW" => createView inner
  | "POLICY" =>
      skip
      (fun _ => "create_policy") <$> createPolicy inner
  | "EXTERNAL" =>
      skip
      createExternalTable inner
  | "FUNCTION" =>
      let reader := functionReader? inner
      createIn reader.isSome ["FUNCTION"]
        ((fun _ => "create_function") <$> reader.getD (pure ()))
  | "TRIGGER" => createIn (hasTriggers d) ["TRIGGER"] trigger
  | "MACRO" =>
      createIn (d == .ansi) ["MACRO"] ((fun _ => "create_macro") <$> createMacro inner)
  | "SECRET" =>
      skip
      createSecret
  | _ =>
      if ← atKeywords ["CONSTRAINT", "TRIGGER"] then
        createIn (hasTriggers d) ["CONSTRAINT", "TRIGGER"] trigger
      else if replaces then
        failHere "[EXTERNAL] TABLE or [MATERIALIZED] VIEW or FUNCTION after CREATE OR REPLACE"
      else createNew inner isBare

/-! ## Dropping -/

/-- Reads functions to be dropped. -/
def dropFunction (inner : Level) (kind : String) : Parse String := do
  discard ifExists?
  discard <| commaSeparated (functionName inner)
  dropBehavior
  return kind

/-- Reads an object of a table to be dropped; `label` reads its name. -/
def dropFromTable {α : Type} (d : Dialect) (label : Parse α) (kind : String) : Parse String := do
  discard ifExists?
  discard label
  expectKeyword "ON"
  discard <| objectNameIn d
  dropBehavior
  return kind

/-- Reads objects to be dropped that a word stands for. -/
def dropObjects (d : Dialect) (object : String) : Parse String := do
  discard ifExists?
  discard <| commaSeparated (objectNameIn d)
  let position ← here
  let cascade ← keyword? "CASCADE"
  let restrict ← keyword? "RESTRICT"
  let purge ← keyword? "PURGE"
  if cascade && restrict then
    throw (.refused "Cannot specify both CASCADE and RESTRICT in DROP" position)
  if object == "ROLE" && (cascade || restrict || purge) then
    throw (.refused "Cannot specify CASCADE, RESTRICT, or PURGE in DROP ROLE" position)
  return "drop"

/-- Reads an object to be dropped, after the word `DROP`. -/
def drop (inner : Level) : Parse String := do
  let d := inner.dialect
  if d == .mysql || d == .ansi then discard <| keyword? "TEMPORARY"
  match ← oneOf? ["TABLE", "VIEW", "INDEX", "ROLE", "SCHEMA", "DATABASE", "SEQUENCE", "STAGE",
    "TYPE"] with
  | some object => dropObjects d object
  | none =>
      match ← peekKeyword with
      | "FUNCTION" =>
          skip
          dropFunction inner "drop_function"
      | "PROCEDURE" =>
          skip
          dropFunction inner "drop_procedure"
      | "POLICY" =>
          skip
          dropFromTable d name "drop_policy"
      | "TRIGGER" =>
          unless hasTriggers d do failHere "an object type after DROP"
          skip
          dropFromTable d (objectNameIn d) "drop_trigger"
      | "SECRET" =>
          skip
          discard ifExists?
          discard name
          discard <| after? "FROM" (attempt name)
          return "drop_secret"
      | _ =>
          failHere ("TABLE, VIEW, INDEX, ROLE, SCHEMA, DATABASE, FUNCTION, PROCEDURE, STAGE, " ++
            "TRIGGER, SECRET, SEQUENCE, or TYPE after DROP")

end TypedSql.Grammar
