import TypedSql.Grammar.Column
import TypedSql.Grammar.Script

/-!
# Reading routines

Functions, procedures, triggers and macros to be created. Of a definition only the name of its kind
is kept.
-/

namespace TypedSql.Grammar

/-! ## Functions -/

/-- Reads an argument of a function that is defined or told apart by its arguments. A type without a
meaning of its own is the name of the argument, and the type comes after it. -/
def functionParameter (inner : Level) : Parse Unit := do
  let d := inner.dialect
  discard <| oneOf? ["IN", "OUT", "INOUT"]
  match ← typeName d with
  | .custom _ => discard <| typeName d
  | _ => pure ()
  if ← keyword? "DEFAULT" then discard <| inner.expr 0
  else if ← symbol? .equal then discard <| inner.expr 0

/-- Reads the name of a function with its arguments, if they are there. -/
def functionName (inner : Level) : Parse Unit := do
  discard <| objectNameIn inner.dialect
  if ← atSymbol .leftParen then
    discard <| parens (commaSeparatedOrNone (functionParameter inner) .rightParen)

/-- The end of the refusal of a clause that is there already. -/
def repeated : String := " specified more than once"

/-- Reads a clause of a function after its first words, unless one of its kind is there already. -/
def functionClause (seen : List String) (kind label : String) (rest : Parse Unit) :
    Parse (Option String) := do
  if seen.contains kind then throw (.refused (label ++ repeated) none)
  rest
  return some kind

/-- Reads the body of a function as a text. -/
def functionBody (d : Dialect) : Parse Unit := do
  match ← peekToken 0 with
  | some (.dollarString _ _) => skip
  | _ => discard <| stringLiteral d

/-- Reads a clause of a function, if one is next. -/
def functionClause? (inner : Level) (seen : List String) : Parse (Option String) := do
  let done : Parse Unit := pure ()
  let behavior := functionClause seen "behavior" "IMMUTABLE | STABLE | VOLATILE" done
  let nulls := functionClause seen "nulls"
    "CALLED ON NULL INPUT | RETURNS NULL ON NULL INPUT | STRICT" done
  if ← keyword? "AS" then functionClause seen "body" "AS" (functionBody inner.dialect)
  else if ← keyword? "LANGUAGE" then functionClause seen "language" "LANGUAGE" (discard name)
  else if (← oneOf? ["IMMUTABLE", "STABLE", "VOLATILE"]).isSome then behavior
  else if ← keywords? ["CALLED", "ON", "NULL", "INPUT"] then nulls
  else if ← keywords? ["RETURNS", "NULL", "ON", "NULL", "INPUT"] then nulls
  else if ← keyword? "STRICT" then nulls
  else if ← keyword? "PARALLEL" then
    functionClause seen "parallel" "PARALLEL \x7b UNSAFE | RESTRICTED | SAFE \x7d" do
      unless (← oneOf? ["UNSAFE", "RESTRICTED", "SAFE"]).isSome do
        failHere "one of UNSAFE | RESTRICTED | SAFE"
  else if ← keyword? "RETURN" then
    functionClause seen "body" "RETURN" (discard <| inner.expr 0)
  else return none

/-- Reads a function with clauses in any order. -/
def clausedFunction (inner : Level) : Parse Unit := do
  discard <| objectNameIn inner.dialect
  discard <| parens (commaSeparatedOrNone (functionParameter inner) .rightParen)
  discard <| after? "RETURNS" (typeName inner.dialect)
  eachOnce (functionClause? inner)

/-- Reads a function with clauses in a fixed order. A function that runs elsewhere has no body, and
options stand before the body or after it. -/
def orderedFunction (inner : Level) : Parse Unit := do
  let d := inner.dialect
  discard ifNotExists?
  discard <| objectNameIn d
  let parameter : Parse Unit := do
    discard name
    discard <| typeName d
  discard <| parens (commaSeparatedOrNone parameter .rightParen)
  discard <| after? "RETURNS" (typeName d)
  unless ← keyword? "DETERMINISTIC" do discard <| keywords? ["NOT", "DETERMINISTIC"]
  discard <| after? "LANGUAGE" name
  let remote ← afterAll? ["REMOTE", "WITH", "CONNECTION"] (objectNameIn d)
  let optioned ← options? inner ["OPTIONS"]
  if remote.isNone then
    expectKeyword "AS"
    discard <| inner.expr 0
    unless optioned do discard <| options? inner ["OPTIONS"]

/-- How a dialect reads a function after the word `FUNCTION`, if it has functions. -/
def functionReader? (inner : Level) : Option (Parse Unit) :=
  match inner.dialect with
  | .postgres | .ansi => some (clausedFunction inner)
  | .bigquery => some (orderedFunction inner)
  | _ => none

/-! ## Triggers -/

/-- Reads what a trigger fires on. -/
def triggerEvent : Parse Unit := do
  match ← expectOneOf ["INSERT", "UPDATE", "DELETE", "TRUNCATE"] with
  | "UPDATE" => discard <| after? "OF" (commaSeparated name)
  | _ => return

/-- Reads a name for the rows before or after the change that a trigger fires on, if one is next.
The first word is taken even where no name follows. -/
def triggerRows? (d : Dialect) : Parse (Option Unit) := do
  if (← oneOf? ["OLD", "NEW"]).isNone then return none
  unless ← keyword? "TABLE" do return none
  discard <| keyword? "AS"
  discard <| objectNameIn d
  return some ()

/-- Reads a trigger to be created, after the word `TRIGGER`. -/
def createTrigger (inner : Level) : Parse Unit := do
  let d := inner.dialect
  discard <| objectNameIn d
  if (← expectOneOf ["BEFORE", "AFTER", "INSTEAD"]) == "INSTEAD" then expectKeyword "OF"
  discard <| rowWhile triggerEvent (keyword? "OR")
  expectKeyword "ON"
  discard <| objectNameIn d
  discard <| after? "FROM" (attempt (tableName d))
  constraintTiming
  if ← keyword? "REFERENCING" then discard <| many (triggerRows? d)
  expectKeyword "FOR"
  discard <| keyword? "EACH"
  discard <| expectOneOf ["ROW", "STATEMENT"]
  discard <| after? "WHEN" (inner.expr 0)
  expectKeyword "EXECUTE"
  discard <| expectOneOf ["FUNCTION", "PROCEDURE"]
  functionName inner

/-- Whether a dialect has triggers. -/
def hasTriggers (d : Dialect) : Bool := d == .postgres || d == .ansi

/-! ## Macros -/

/-- Reads an argument of a macro, which may have a value. -/
def macroArgument (inner : Level) : Parse Unit := do
  discard name
  if ← symbol? .assign then discard <| inner.expr 0
  else if ← symbol? .doubleArrow then discard <| inner.expr 0

/-- Reads a macro to be created, after the word `MACRO`. -/
def createMacro (inner : Level) : Parse Unit := do
  discard <| objectNameIn inner.dialect
  discard <| parens (commaSeparatedOrNone (macroArgument inner) .rightParen)
  expectKeyword "AS"
  if ← keyword? "TABLE" then discard inner.query
  else discard <| inner.expr 0

/-! ## Procedures -/

/-- Reads the arguments of a procedure as far as the closing parenthesis. A comma may stand before
it. -/
def procedureParameters (d : Dialect) : Nat → Parse Unit
  | 0 => return
  | fuel + 1 => do
      if let some (.word _) ← peekToken 0 then
        discard name
        discard <| typeName d
      let comma ← symbol? .comma
      if ← symbol? .rightParen then return
      else if comma then procedureParameters d fuel
      else failHere "',' or ')' after parameter definition"

/-- Reads a procedure to be created, after the word `PROCEDURE`. -/
def createProcedure (inner : Level) : Parse Unit := do
  let d := inner.dialect
  discard <| objectNameIn d
  if ← symbol? .leftParen then
    unless ← symbol? .rightParen do procedureParameters d ((← remaining) + 1)
  expectKeyword "AS"
  expectKeyword "BEGIN"
  discard <| statements inner.statement
  expectKeyword "END"

end TypedSql.Grammar
