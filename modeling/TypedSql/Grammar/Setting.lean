import TypedSql.Grammar.Query

/-!
# Reading settings

Settings of a session and the modes of its transactions. Each reader gives the name of the kind of
its command.
-/

namespace TypedSql.Grammar

/-! ## Transactions -/

/-- Reads a mode of a transaction, and tells whether one is next. -/
def transactionMode? : Parse Bool := do
  if ← keywords? ["ISOLATION", "LEVEL"] then
    for words in [["READ", "UNCOMMITTED"], ["READ", "COMMITTED"], ["REPEATABLE", "READ"],
        ["SERIALIZABLE"]] do
      if ← keywords? words then return true
    failHere "isolation level"
  else if ← keywords? ["READ", "ONLY"] then return true
  else keywords? ["READ", "WRITE"]

/-- Reads the modes of a transaction. A comma needs another mode after it, which is what `required`
tells. -/
def modesFrom (required : Bool) : Nat → Parse Unit
  | 0 => return
  | fuel + 1 => do
      if ← transactionMode? then modesFrom (← symbol? .comma) fuel
      else if required then failHere "transaction mode"

/-- Reads the modes of a transaction. -/
def transactionModes : Parse Unit := do modesFrom false ((← remaining) + 1)

/-- Reads a start of a transaction after the word `BEGIN`. -/
def beginTransaction (d : Dialect) : Parse String := do
  if d == .sqlite || d == .ansi then
    discard <| oneOf? ["DEFERRED", "IMMEDIATE", "EXCLUSIVE"]
  discard <| oneOf? ["TRANSACTION", "WORK"]
  transactionModes
  return "start_transaction"

/-- Reads whether another transaction starts right away. -/
def chaining : Parse Unit := do
  discard <| oneOf? ["TRANSACTION", "WORK"]
  if ← keyword? "AND" then
    discard <| keyword? "NO"
    expectKeyword "CHAIN"

/-- Reads a return to the start of a transaction or to a savepoint. -/
def rollback : Parse String := do
  chaining
  if ← keyword? "TO" then
    discard <| keyword? "SAVEPOINT"
    discard name
  return "rollback"

/-! ## Settings -/

/-- Reads the value of a setting: a query, or an expression. Where the expression fails, the token
after those that were read of it is blamed. -/
def settingValue (inner : Level) : Parse Unit := do
  if ← atQuery then discard inner.query
  else if (← attempt (inner.expr 0)).isNone then failHere "variable value"

/-- Reads the names that get a value; `none` where they stand in parentheses. -/
def settingNames (d : Dialect) : Parse (Option (List Word)) := do
  if ← keywords? ["TIME", "ZONE"] then return some [⟨"TIMEZONE", none⟩]
  else if (d == .bigquery || d == .ansi) && (← atSymbol .leftParen) then
    discard <| parens (commaSeparated name)
    return none
  else return some (← objectNameIn d)

/-- Reads the character set of a session. -/
def sessionNames (d : Dialect) : Parse String := do
  if ← keyword? "DEFAULT" then return "set_names_default"
  discard <| stringLiteral d
  discard <| after? "COLLATE" (stringLiteral d)
  return "set_names"

/-- Reads a setting whose name has no sign after it. -/
def bareSetting (inner : Level) (names : List Word) (modifier : Option String) :
    Parse String := do
  let setting := dotted names
  if setting.toUpper == "TIMEZONE" then
    if (← attempt (inner.expr 0)).isNone then failHere "timezone value"
    return "set_time_zone"
  else if setting == "CHARACTERISTICS" then
    expectKeywords ["AS", "TRANSACTION"]
    transactionModes
    return "set_transaction"
  else if setting == "TRANSACTION" && modifier.isNone then
    if ← keyword? "SNAPSHOT" then discard constant
    else transactionModes
    return "set_transaction"
  else failHere "equals sign or TO"

/-- Reads a setting after its modifier. -/
def namedSetting (inner : Level) (modifier : Option String) : Parse String := do
  let d := inner.dialect
  let names ← settingNames d
  let ofNames := match names with
    | some names => (dotted names).toUpper == "NAMES"
    | none => false
  if ofNames && (d == .mysql || d == .ansi) then return ← sessionNames d
  let signed ← if ← symbol? .equal then pure true else keyword? "TO"
  let values : Parse Unit := discard <| commaSeparated (settingValue inner)
  match signed, names with
  | true, some _ =>
      values
      return "set_variable"
  | true, none =>
      parens values
      return "set_variable"
  | false, some names => bareSetting inner names modifier
  | false, none => failHere "set variable"

/-- Reads a setting after the word `SET`. -/
def setting (inner : Level) : Parse String := do
  let modifier ← oneOf? ["SESSION", "LOCAL", "HIVEVAR"]
  if modifier == some "HIVEVAR" then
    expectSymbol .colon
    namedSetting inner modifier
  else
    let role ← maybe do
      expectKeyword "ROLE"
      name
    if role.isSome then return "set_role"
    else namedSetting inner modifier

end TypedSql.Grammar
