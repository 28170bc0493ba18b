import TypedSql.Grammar.Query

/-!
# Reading listings

Commands that tell about statements, tables and other objects. Each reader gives the name of its
kind.
-/

namespace TypedSql.Grammar

/-! ## Explaining -/

/-- Reads an option of an explanation. -/
def explainOption (inner : Level) : Parse Unit := do
  discard name
  unless (← atSymbol .comma) || (← atSymbol .rightParen) do discard <| inner.expr 0

/-- Reads how a statement is explained. -/
def explainOptions (inner : Level) (full : Bool) : Parse Unit := do
  let d := inner.dialect
  if full && (d == .postgres || d == .ansi) && (← atSymbol .leftParen) then
    discard <| parens (commaSeparated (explainOption inner))
  else if ← keywords? ["QUERY", "PLAN"] then return
  else
    discard <| keyword? "ANALYZE"
    discard <| keyword? "VERBOSE"
    if ← keyword? "FORMAT" then
      match ← oneOf? ["TEXT", "GRAPHVIZ", "JSON"] with
      | some _ => return
      | none => failNext "fileformat"

/-- Whether a statement is itself an explanation. -/
def isExplanation : Statement → Bool
  | .command "explain" | .command "explain_table" => true
  | _ => false

/-- Reads an explanation of a statement or a description of a table. -/
def explain (inner : Level) (full : Bool) : Parse String := do
  explainOptions inner full
  match ← maybe inner.statement with
  | some explained =>
      if isExplanation explained then
        throw (.refused "Explain must be root of the plan" none)
      else return "explain"
  | none =>
      discard <| oneOf? ["EXTENDED", "FORMATTED"]
      discard <| objectNameIn inner.dialect
      return "explain_table"

/-- Reads what is collected about a table, if more is said. -/
def analysis? (inner : Level) : Parse (Option Unit) := do
  match ← oneOf? ["PARTITION", "FOR", "CACHE", "NOSCAN", "COMPUTE"] with
  | some "PARTITION" => discard <| parens (exprs inner)
  | some "FOR" =>
      expectKeyword "COLUMNS"
      discard <| maybe (commaSeparated name)
  | some "CACHE" => expectKeyword "METADATA"
  | some "COMPUTE" => expectKeyword "STATISTICS"
  | some _ => pure ()
  | none => return none
  return some ()

/-- Reads a collection of statistics on a table. -/
def analyzeTable (inner : Level) : Parse String := do
  expectKeyword "TABLE"
  discard <| objectNameIn inner.dialect
  discard <| many (analysis? inner)
  return "analyze"

/-! ## Showing -/

/-- Reads a filter on what is shown, if it is there. -/
def showFilter (inner : Level) : Parse Unit := do
  let d := inner.dialect
  if (← oneOf? ["LIKE", "ILIKE"]).isSome then discard <| stringLiteral d
  else if ← keyword? "WHERE" then discard <| inner.expr 0
  else discard <| maybe (stringLiteral d)

/-- Reads what the shown objects belong to, if it is said. A kind of owner may go without the name
of one. -/
def showPlace (d : Dialect) : Parse Unit := do
  if (← oneOf? ["FROM", "IN"]).isNone then return
  match ← oneOf? ["ACCOUNT", "DATABASE", "SCHEMA", "TABLE", "VIEW"] with
  | some kind =>
      let ended := (← atKeywords ["STARTS", "WITH"]) || (← atKeywords ["LIMIT"])
      unless (kind == "DATABASE" || kind == "SCHEMA") && ended do
        discard <| maybe (objectNameIn d)
  | none =>
      discard <| objectNameIn d
      if (← oneOf? ["FROM", "IN"]).isSome then discard name

/-- Reads which of some objects are shown. -/
def showOptions (inner : Level) : Parse Unit := do
  showPlace inner.dialect
  showFilter inner
  discard <| afterAll? ["STARTS", "WITH"] constant
  discard <| after? "LIMIT" (limit inner)
  discard <| after? "FROM" constant

/-- Takes all tokens up to an equals sign. -/
def restOfText : Nat → Parse Unit
  | 0 => return
  | fuel + 1 => do
      match ← peekToken 0 with
      | none => return
      | some (.symbol .equal) => return
      | some _ =>
          skip
          restOfText fuel

/-- Reads variables or the state of a server, in the dialect that tells them apart, and tells
whether one of these is shown. The words are taken in any dialect. -/
def showServer? (inner : Level) : Parse (Option String) := do
  let d := inner.dialect
  let told := d == .mysql || d == .ansi
  if ← keyword? "VARIABLES" then
    if told then
      showFilter inner
      return some "show_variables"
  if ← keyword? "STATUS" then
    if told then
      showFilter inner
      return some "show_status"
  return none

/-- Reads objects that cannot be shown in full. -/
def showOthers (inner : Level) : Parse String := do
  if ← keyword? "CREATE" then
    discard <| expectOneOf ["TABLE", "TRIGGER", "FUNCTION", "PROCEDURE", "EVENT", "VIEW"]
    discard <| objectNameIn inner.dialect
    return "show_create"
  if ← keyword? "COLLATION" then
    showFilter inner
    return "show_collation"
  if let some kind ← showServer? inner then return kind
  match ← oneOf? ["DATABASES", "SCHEMAS"] with
  | some word =>
      discard <| keyword? "HISTORY"
      showOptions inner
      return if word == "DATABASES" then "show_databases" else "show_schemas"
  | none =>
      restOfText (← remaining)
      return "show_variable"

/-- Reads what is shown, after the word `SHOW`. -/
def showObjects (inner : Level) : Parse String := do
  discard <| keyword? "TERSE"
  let extended ← keyword? "EXTENDED"
  let full ← keyword? "FULL"
  discard <| keyword? "SESSION"
  discard <| keyword? "GLOBAL"
  let external ← keyword? "EXTERNAL"
  let listing (kind : String) : Parse String := do
    showOptions inner
    return kind
  if (← oneOf? ["COLUMNS", "FIELDS"]).isSome then listing "show_columns"
  else if ← keyword? "TABLES" then
    unless external do discard <| keyword? "HISTORY"
    listing "show_tables"
  else if ← keywords? ["MATERIALIZED", "VIEWS"] then listing "show_views"
  else if ← keyword? "VIEWS" then listing "show_views"
  else if ← keyword? "FUNCTIONS" then
    showFilter inner
    return "show_functions"
  else if extended || full then
    throw (.refused "EXTENDED/FULL are not supported with this type of SHOW query" none)
  else showOthers inner

end TypedSql.Grammar
