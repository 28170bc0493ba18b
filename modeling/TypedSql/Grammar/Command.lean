import TypedSql.Grammar.Alteration
import TypedSql.Grammar.Listing
import TypedSql.Grammar.Setting
import TypedSql.Grammar.Transfer

/-!
# Reading commands

The statements that are neither queries nor changes of rows. Each reader gives the name of its kind,
in lower case with an underscore where a new word starts. A kind whose name is an abbreviation in
capitals has an underscore between all its letters.
-/

namespace TypedSql.Grammar

/-! ## Rights -/

/-- Reads a right, which may be on columns. -/
def privilege : Parse Unit := do
  match ← oneOf? ["CONNECT", "CREATE", "DELETE", "EXECUTE", "INSERT", "REFERENCES", "SELECT",
    "TEMPORARY", "TRIGGER", "TRUNCATE", "UPDATE", "USAGE"] with
  | some word =>
      if ["INSERT", "REFERENCES", "SELECT", "UPDATE"].contains word then discard <| names? false
  | none => failHere "a privilege keyword"

/-- Reads rights and what they are on. -/
def privileges (d : Dialect) : Parse Unit := do
  if ← keyword? "ALL" then discard <| keyword? "PRIVILEGES"
  else discard <| commaSeparated privilege
  expectKeyword "ON"
  unless ← keywords? ["ALL", "TABLES", "IN", "SCHEMA"] do
    unless ← keywords? ["ALL", "SEQUENCES", "IN", "SCHEMA"] do
      discard <| oneOf? ["SEQUENCE", "SCHEMA", "TABLE"]
  discard <| commaSeparated (objectNameIn d)

/-- Reads a grant of rights. -/
def grant (d : Dialect) : Parse String := do
  privileges d
  expectKeyword "TO"
  discard <| commaSeparated name
  discard <| keywords? ["WITH", "GRANT", "OPTION"]
  discard <| afterAll? ["GRANTED", "BY"] name
  return "grant"

/-- Reads a withdrawal of rights. -/
def revoke (d : Dialect) : Parse String := do
  privileges d
  expectKeyword "FROM"
  discard <| commaSeparated name
  discard <| afterAll? ["GRANTED", "BY"] name
  let position ← here
  let cascade ← keyword? "CASCADE"
  let restrict ← keyword? "RESTRICT"
  if cascade && restrict then
    throw (.refused "Cannot specify both CASCADE and RESTRICT in REVOKE" position)
  return "revoke"

/-! ## Upkeep -/

/-- Reads tables to be emptied. -/
def truncate (inner : Level) : Parse String := do
  let d := inner.dialect
  discard <| keyword? "TABLE"
  discard <| keyword? "ONLY"
  discard <| commaSeparated (objectNameIn d)
  discard <| after? "PARTITION" (parens (exprs inner))
  if d == .postgres || d == .ansi then
    unless ← keywords? ["RESTART", "IDENTITY"] do
      discard <| keywords? ["CONTINUE", "IDENTITY"]
    dropBehavior
  onCluster
  return "truncate"

/-- Reads the tables that are flushed and what is done with them, as far as the first token that is
no word, which is taken. -/
def flushTables (d : Dialect) : Nat → Parse Unit
  | 0 => return
  | fuel + 1 => do
      match ← peekToken 0 with
      | some (.word w) =>
          if !Keyword.isKnown w then discard <| commaSeparated (objectNameIn d)
          else
            skip
            if w.keyword == "WITH" then discard <| keywords? ["READ", "LOCK"]
            else if w.keyword == "FOR" then discard <| keyword? "EXPORT"
          flushTables d fuel
      | _ => skip

/-- Reads what is flushed. -/
def flush (d : Dialect) : Parse String := do
  unless d == .mysql || d == .ansi do refuseHere "Unsupported statement FLUSH"
  discard <| oneOf? ["NO_WRITE_TO_BINLOG", "LOCAL"]
  for word in ["BINARY", "ENGINE", "ERROR", "GENERAL", "SLOW"] do
    if ← keywords? [word, "LOGS"] then return "flush"
  if ← keywords? ["RELAY", "LOGS"] then
    discard <| afterAll? ["FOR", "CHANNEL"] (objectNameIn d)
    return "flush"
  match ← oneOf? ["HOSTS", "PRIVILEGES", "OPTIMIZER_COSTS", "STATUS", "USER_RESOURCES", "LOGS",
    "TABLES"] with
  | some "TABLES" =>
      flushTables d ((← remaining) + 1)
      return "flush"
  | some _ => return "flush"
  | none =>
      failHere ("BINARY LOGS, ENGINE LOGS, ERROR LOGS, GENERAL LOGS, HOSTS, LOGS, PRIVILEGES, " ++
        "OPTIMIZER_COSTS,RELAY LOGS [FOR CHANNEL channel], SLOW LOGS, STATUS, USER_RESOURCES")

/-- Reads a connection or a query that is ended. -/
def kill (d : Dialect) : Parse String := do
  let kind ← oneOf? ["CONNECTION", "QUERY", "MUTATION"]
  discard count
  if kind == some "MUTATION" && d != .ansi then
    failHere "Unsupported type for KILL, allowed: CONNECTION | QUERY"
  return "kill"

/-- Reads the value of a pragma. -/
def pragmaValue : Parse Unit := do
  let found ← peek
  match ← constant with
  | .string .plain .single _ | .string .plain .double _ | .number _ _ | .placeholder _ => return
  | _ => unexpected "number or string or ? placeholder" found

/-- Reads a pragma. -/
def pragma (d : Dialect) : Parse String := do
  discard <| objectNameIn d
  if ← atSymbol .leftParen then parens pragmaValue
  else if ← symbol? .equal then pragmaValue
  return "pragma"

/-- Reads a table whose parts are merged. -/
def optimizeTable (inner : Level) : Parse String := do
  expectKeyword "TABLE"
  discard <| objectNameIn inner.dialect
  onCluster
  if ← keyword? "PARTITION" then
    if ← keyword? "ID" then discard name else discard <| inner.expr 0
  discard <| keyword? "FINAL"
  if ← keyword? "DEDUPLICATE" then discard <| after? "BY" (inner.expr 0)
  return "optimize_table"

/-- Reads a table whose partitions are looked for. -/
def checkPartitions (d : Dialect) : Parse String := do
  discard <| keyword? "REPAIR"
  expectKeyword "TABLE"
  discard <| objectNameIn d
  discard <| maybe do
    discard <| oneOf? ["ADD", "DROP", "SYNC"]
    expectKeyword "PARTITIONS"
  return "msck"

/-- Reads a comment on an object. -/
def commentOn (d : Dialect) : Parse String := do
  discard ifExists?
  expectKeyword "ON"
  match ← oneOf? ["COLUMN", "TABLE", "EXTENSION", "SCHEMA", "DATABASE", "USER", "ROLE"] with
  | some _ => discard <| objectNameIn d
  | none => failNext "comment object_type"
  expectKeyword "IS"
  unless ← keyword? "NULL" do discard <| stringLiteral d
  return "comment"

/-! ## Locks -/

/-- Reads a table to be locked. -/
def lockedTable : Parse Unit := do
  discard name
  discard <| aliasWord? ["READ", "WRITE", "LOW_PRIORITY"]
  if ← keyword? "READ" then discard <| keyword? "LOCAL"
  else if ← keyword? "WRITE" then return
  else if ← keywords? ["LOW_PRIORITY", "WRITE"] then return
  else failHere "an lock type in LOCK TABLES"

/-- Reads a lock on tables or its end, in the dialect that has them. -/
def tableLocks? (d : Dialect) : Parse (Option String) := do
  if d != .mysql then return none
  else if ← keywords? ["LOCK", "TABLES"] then
    discard <| commaSeparated lockedTable
    return some "lock_tables"
  else if ← keywords? ["UNLOCK", "TABLES"] then return some "unlock_tables"
  else return none

/-! ## Running statements -/

/-- Reads the values that a prepared statement runs with. -/
def executeValues (inner : Level) : Parse Unit := do
  if ← atSymbol .leftParen then
    discard <| parens (commaSeparatedOrNone (inner.expr 0) .rightParen)
  else
    match ← peekToken 0 with
    | none => return
    | some (.symbol .semicolon) => return
    | some (.word w) =>
        unless w.keyword == "USING" do discard <| commaSeparated (inner.expr 0)
    | some _ => discard <| commaSeparated (inner.expr 0)

/-- Reads a run of a prepared statement. -/
def execute (inner : Level) : Parse String := do
  discard <| objectNameIn inner.dialect
  executeValues inner
  discard <| after? "USING" (exprs inner)
  return "execute"

/-- Reads a statement to be prepared. -/
def prepare (inner : Level) : Parse String := do
  discard name
  if ← atSymbol .leftParen then
    discard <| parens (commaSeparated (typeName inner.dialect))
  expectKeyword "AS"
  discard inner.statement
  return "prepare"

/-- Reads a call of a procedure. -/
def callProcedure (inner : Level) : Parse String := do
  let procedure ← objectNameIn inner.dialect
  if ← atSymbol .leftParen then discard <| callPieces inner procedure
  return "call"

/-- Reads declared variables, which have a type, a value or both. -/
def declareVariables (inner : Level) : Parse String := do
  discard <| commaSeparated name
  if ← keyword? "DEFAULT" then discard <| inner.expr 0
  else
    discard <| typeName inner.dialect
    discard <| after? "DEFAULT" (inner.expr 0)
  return "declare"

/-! ## Commands -/

/-- The reader of a command on objects, roles or files after its first keyword. -/
def objectCommand? (inner : Level) (word : String) : Option (Parse String) :=
  let d := inner.dialect
  match word with
  | "ANALYZE" => some (analyzeTable inner)
  | "TRUNCATE" => some (truncate inner)
  | "MSCK" => some (checkPartitions d)
  | "CREATE" => some (create inner)
  | "CACHE" => some (cacheTable inner)
  | "DROP" => some (drop inner)
  | "UNCACHE" => some do
      expectKeyword "TABLE"
      discard ifExists?
      discard <| objectNameIn d
      return "u_n_cache"
  | "ALTER" => some (alter inner)
  | "COPY" => some (copy inner)
  | "GRANT" => some (grant d)
  | "REVOKE" => some (revoke d)
  | "MERGE" => some (merge inner)
  | "UNLOAD" => some (unload inner)
  | "OPTIMIZE" => if d == .ansi then some (optimizeTable inner) else none
  | "COMMENT" => if d == .postgres || d == .ansi then some (commentOn d) else none
  | _ => none

/-- The reader of a command on the session after its first keyword. -/
def sessionCommand? (inner : Level) (word : String) : Option (Parse String) :=
  let d := inner.dialect
  match word with
  | "KILL" => some (kill d)
  | "FLUSH" => some (flush d)
  | "ATTACH" => some do
      discard <| keyword? "DATABASE"
      discard <| inner.expr 0
      expectKeyword "AS"
      discard name
      return "attach_database"
  | "DETACH" =>
      if d == .ansi then some do
        discard <| keyword? "DATABASE"
        discard ifExists?
        discard name
        return "detach_duck_d_b_database"
      else none
  | "DISCARD" => some do
      match ← oneOf? ["ALL", "PLANS", "SEQUENCES", "TEMP", "TEMPORARY"] with
      | some _ => return "discard"
      | none => failHere "ALL, PLANS, SEQUENCES, TEMP or TEMPORARY after DISCARD"
  | "SET" => some (setting inner)
  | "SHOW" => some (showObjects inner)
  | "USE" => some do
      discard <| objectNameIn d
      return "use"
  | "START" => some do
      expectKeyword "TRANSACTION"
      transactionModes
      return "start_transaction"
  | "BEGIN" => some (beginTransaction d)
  | "END" | "COMMIT" => some do
      chaining
      return "commit"
  | "SAVEPOINT" => some do
      discard name
      return "savepoint"
  | "RELEASE" => some do
      discard <| keyword? "SAVEPOINT"
      discard name
      return "release_savepoint"
  | "ROLLBACK" => some rollback
  | "PRAGMA" => some (pragma d)
  | "INSTALL" =>
      if d == .ansi then some do
        discard name
        return "install"
      else none
  | "LOAD" => some (load d)
  | _ => none

/-- The reader of a command on statements, cursors or channels after its first keyword. -/
def statementCommand? (inner : Level) (word : String) : Option (Parse String) :=
  let d := inner.dialect
  let notifies := d == .postgres
  match word with
  | "DESC" | "DESCRIBE" => some (explain inner false)
  | "EXPLAIN" => some (explain inner true)
  | "DECLARE" => some (if d == .bigquery then declareVariables inner else declareCursor inner)
  | "FETCH" => some (fetchRows d)
  | "CALL" => some (callProcedure inner)
  | "CLOSE" => some do
      unless ← keyword? "ALL" do discard name
      return "close"
  | "ASSERT" => some do
      discard <| inner.expr 0
      discard <| after? "AS" (inner.expr 0)
      return "assert"
  | "DEALLOCATE" => some do
      discard <| keyword? "PREPARE"
      discard name
      return "deallocate"
  | "EXECUTE" | "EXEC" => some (execute inner)
  | "PREPARE" => some (prepare inner)
  | "LISTEN" =>
      if notifies then some do
        discard name
        return "l_i_s_t_e_n"
      else none
  | "UNLISTEN" =>
      if notifies then some do
        unless ← symbol? .star do
          if (← maybe name).isNone then failHere "wildcard or identifier"
        return "u_n_l_i_s_t_e_n"
      else none
  | "NOTIFY" =>
      if notifies then some do
        discard name
        if ← symbol? .comma then discard <| stringLiteral d
        return "n_o_t_i_f_y"
      else none
  | _ => none

/-- The reader of a command after its first keyword, in a dialect that has the command. -/
def commandAfter? (inner : Level) (word : String) : Option (Parse String) :=
  (objectCommand? inner word).orElse fun _ =>
    (sessionCommand? inner word).orElse fun _ => statementCommand? inner word

end TypedSql.Grammar
