import TypedSql.Grammar.Option
import TypedSql.Text.Shown

/-!
# Reading transfers

Commands that move rows between tables and files, or between one table and another. Each reader
gives the name of its kind.
-/

namespace TypedSql.Grammar

/-! ## Copies -/

/-- Reads a text that is a single byte long. -/
def literalByte (d : Dialect) : Parse Unit := do
  let position ← here
  let content ← stringLiteral d
  unless content.utf8ByteSize == 1 do
    throw (.refused ("Expect a char, found " ++ Text.shown content) position)

/-- Reads an option of a copy. -/
def copyOption (d : Dialect) : Parse Unit := do
  match ← oneOf? ["FORMAT", "FREEZE", "DELIMITER", "NULL", "HEADER", "QUOTE", "ESCAPE",
    "FORCE_QUOTE", "FORCE_NOT_NULL", "FORCE_NULL", "ENCODING"] with
  | some "FORMAT" => discard name
  | some "FREEZE" | some "HEADER" => discard <| oneOf? ["TRUE", "FALSE"]
  | some "DELIMITER" | some "QUOTE" | some "ESCAPE" => literalByte d
  | some "FORCE_QUOTE" | some "FORCE_NOT_NULL" | some "FORCE_NULL" => discard nameGroup
  | some _ => discard <| stringLiteral d
  | none => failHere "option"

/-- Reads an option of a file with commas, in the older form of a copy. -/
def csvOption (d : Dialect) : Parse Unit := do
  match ← oneOf? ["HEADER", "QUOTE", "ESCAPE", "FORCE"] with
  | some "HEADER" => return
  | some "FORCE" =>
      let told ← if ← keywords? ["NOT", "NULL"] then pure true else keyword? "QUOTE"
      unless told do failHere "csv option"
      discard <| commaSeparated name
  | some _ =>
      discard <| keyword? "AS"
      literalByte d
  | none => failHere "csv option"

/-- Reads an option of a copy in the older form. -/
def oldCopyOption (d : Dialect) : Parse Unit := do
  match ← oneOf? ["BINARY", "DELIMITER", "NULL", "CSV"] with
  | some "BINARY" => return
  | some "DELIMITER" =>
      discard <| keyword? "AS"
      literalByte d
  | some "NULL" =>
      discard <| keyword? "AS"
      discard <| stringLiteral d
  | some _ => discard <| many (maybe (csvOption d))
  | none => failHere "option"

/-- Takes the rows of a copy, as far as the mark that ends them. -/
def copyRows : Nat → Parse Unit
  | 0 => return
  | fuel + 1 => do
      match tokenOf (← nextOfAll) with
      | none => return
      | some (.symbol .backslash) =>
          unless ← symbol? .dot do
            skip
            copyRows fuel
      | some _ => copyRows fuel

/-- Reads what is copied, and tells whether it is a query. -/
def copySource (inner : Level) : Parse Bool := do
  if ← atSymbol .leftParen then
    discard <| parens inner.query
    return true
  else
    discard <| objectNameIn inner.dialect
    discard <| names? false
    return false

/-- Reads a copy between a table and a file. -/
def copy (inner : Level) : Parse String := do
  let d := inner.dialect
  let ofQuery ← copySource inner
  let some direction ← oneOf? ["FROM", "TO"] | failHere "FROM or TO"
  if direction == "FROM" && ofQuery then
    throw (.refused "COPY ... FROM does not support query as a source" none)
  let fromInput ← keyword? "STDIN"
  unless fromInput do
    unless ← keyword? "STDOUT" do
      discard <| keyword? "PROGRAM"
      discard <| stringLiteral d
  discard <| keyword? "WITH"
  if ← atSymbol .leftParen then discard <| parens (commaSeparated (copyOption d))
  discard <| many (maybe (oldCopyOption d))
  if fromInput then
    expectSymbol .semicolon
    copyRows ((← remaining) + 1)
  return "copy"

/-! ## Merges -/

/-- The rows that a clause of a merge is for. -/
inductive MergeRows
  | paired
  | unpaired
  | unpairedByTarget
  | unpairedBySource
  deriving DecidableEq, Repr

namespace MergeRows

/-- The rows as a clause names them. -/
def text : MergeRows → String
  | paired => "MATCHED"
  | unpaired => "NOT MATCHED"
  | unpairedByTarget => "NOT MATCHED BY TARGET"
  | unpairedBySource => "NOT MATCHED BY SOURCE"

/-- Whether the rows are in the target, where they can be changed; others can only be added. -/
def inTarget : MergeRows → Bool
  | paired | unpairedBySource => true
  | unpaired | unpairedByTarget => false

end MergeRows

/-- Reads the rows that a clause of a merge is for. -/
def mergeRows : Parse MergeRows := do
  let negated ← keyword? "NOT"
  expectKeyword "MATCHED"
  if !negated then return .paired
  else if ← keywords? ["BY", "SOURCE"] then return .unpairedBySource
  else if ← keywords? ["BY", "TARGET"] then return .unpairedByTarget
  else return .unpaired

/-- Reads the row that a merge adds. -/
def mergedRow (inner : Level) : Parse Unit := do
  let d := inner.dialect
  discard <| names? (d == .mysql)
  if (d == .bigquery || d == .ansi) && (← atKeywords ["ROW"]) then skip
  else
    expectKeyword "VALUES"
    discard <| rows inner (d == .mysql)

/-- Reads what a merge does with some rows. -/
def mergeAction (inner : Level) (target : MergeRows) : Parse Unit := do
  let some word ← oneOf? ["UPDATE", "INSERT", "DELETE"]
    | throw (.refused "expected UPDATE, DELETE or INSERT in merge clause" none)
  if target.inTarget == (word == "INSERT") then
    throw (.refused s!"{word} is not allowed in a {target.text} merge clause" none)
  match word with
  | "UPDATE" =>
      expectKeyword "SET"
      discard <| assignments inner
  | "INSERT" => mergedRow inner
  | _ => return

/-- Reads a clause of a merge, unless the statement ends here. -/
def mergeClause? (inner : Level) : Parse (Option Unit) := do
  match ← peekToken 0 with
  | none => return none
  | some (.symbol .semicolon) => return none
  | some _ =>
      expectKeyword "WHEN"
      let target ← mergeRows
      discard <| after? "AND" (inner.expr 0)
      expectKeyword "THEN"
      mergeAction inner target
      return some ()

/-- Reads a merge of one table into another. -/
def merge (inner : Level) : Parse String := do
  discard <| keyword? "INTO"
  discard <| tableFactor inner ((← remaining) + 1)
  expectKeyword "USING"
  discard <| tableFactor inner ((← remaining) + 1)
  expectKeyword "ON"
  discard <| inner.expr 0
  discard <| many (mergeClause? inner)
  return "merge"

/-! ## Cursors -/

/-- Reads what a cursor is declared for. -/
def declareCursor (inner : Level) : Parse String := do
  discard name
  discard <| keyword? "BINARY"
  discard <| oneOf? ["INSENSITIVE", "ASENSITIVE"]
  unless ← keyword? "SCROLL" do discard <| keywords? ["NO", "SCROLL"]
  expectKeyword "CURSOR"
  if (← oneOf? ["WITH", "WITHOUT"]).isSome then expectKeyword "HOLD"
  expectKeyword "FOR"
  discard inner.query
  return "declare"

/-- Reads which rows of a cursor are fetched. -/
def fetchRows (d : Dialect) : Parse String := do
  match ← oneOf? ["NEXT", "PRIOR", "FIRST", "LAST", "ALL", "ABSOLUTE", "RELATIVE", "FORWARD",
    "BACKWARD"] with
  | some "ABSOLUTE" | some "RELATIVE" => discard numberConstant
  | some "FORWARD" | some "BACKWARD" =>
      unless ← keyword? "ALL" do discard numberConstant
  | some _ => pure ()
  | none => discard numberConstant
  discard <| expectOneOf ["FROM", "IN"]
  discard name
  discard <| after? "INTO" (objectNameIn d)
  return "fetch"

/-! ## Other transfers -/

/-- Reads a query whose rows go into files. -/
def unload (inner : Level) : Parse String := do
  discard <| parens inner.query
  expectKeyword "TO"
  discard name
  discard <| options? inner ["WITH"]
  return "unload"

/-- Reads a query that may have the word `AS` before it. -/
def asQuery (inner : Level) : Parse Unit := do
  match ← peekToken 0 with
  | some (.word _) =>
      discard <| keyword? "AS"
      discard inner.query
  | _ => failHere "a QUERY statement"

/-- Fails at the next token, or at the last one of some text where no other is left. -/
def failAtLast {α : Type} (expected : String) (text : List Lexeme) : Parse α := do
  match ← peek with
  | some lexeme => unexpected expected (some lexeme)
  | none => unexpected expected (text.filter fun lexeme => !lexeme.token.isGap).getLast?

/-- Reads a table to be kept in memory. -/
def cacheTable (inner : Level) : Parse String := do
  let d := inner.dialect
  let text ← ahead
  unless ← keyword? "TABLE" do
    discard <| objectNameIn d
    unless ← keyword? "TABLE" do failAtLast "a `TABLE` keyword" text
  discard <| objectNameIn d
  discard <| options? inner ["OPTIONS"]
  unless (← peek).isNone do asQuery inner
  return "cache"

/-- Reads a module to be loaded, in a dialect that loads modules. -/
def load (d : Dialect) : Parse String := do
  if d == .postgres || d == .ansi then
    discard name
    return "load"
  else
    discard <| keyword? "DATA"
    failHere "`DATA` or an extension name after `LOAD`"

end TypedSql.Grammar
