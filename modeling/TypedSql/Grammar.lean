import TypedSql.Grammar.Command
import TypedSql.Grammar.Script

/-!
# Reading statements

`parse` reads a text as statements with semicolons between them. Statements, queries and expressions
may nest in one another fifty levels deep.
-/

namespace TypedSql.Grammar

/-- Reads an insert as a statement. -/
def insertStatement (inner : Level) : Parse Statement := do
  match ← insert inner with
  | .table i => return .insert i
  | .directory _ => return .command "directory"

/-- Reads a statement that is a query or a change of rows, where its first keyword is one. -/
def rowStatement? (inner : Level) (word : String) : Option (Parse Statement) :=
  match word with
  | "SELECT" | "WITH" | "VALUES" => some (Statement.query <$> inner.query)
  | "DELETE" => some do
      skip
      return .delete (← delete inner)
  | "INSERT" => some do
      skip
      insertStatement inner
  | "UPDATE" => some do
      skip
      return .update (← update inner)
  | "REPLACE" => some do
      match inner.dialect with
      | .sqlite => insertStatement inner
      | .mysql | .ansi =>
          skip
          insertStatement inner
      | _ =>
          skip
          refuseHere "Unsupported statement REPLACE"
  | _ => none

/-- Reads a statement. -/
def statement (inner : Level) : Parse Statement := do
  if let some kind ← tableLocks? inner.dialect then return .command kind
  match ← peekToken 0 with
  | some (.word w) =>
      match rowStatement? inner w.keyword, commandAfter? inner w.keyword with
      | some read, _ => read
      | none, some read =>
          skip
          return .command (← read)
      | none, none => failHere "an SQL statement"
  | some (.symbol .leftParen) => return .query (← inner.query)
  | _ => failHere "an SQL statement"

/-- The readings that may nest as deep as a number says, without and with the word `PRIOR` as an
operator. -/
def levelPair (d : Dialect) : Nat → Level × Level
  | 0 => (.bottom d false, .bottom d true)
  | depth + 1 =>
      let (inner, innerPrior) := levelPair d depth
      let level (prior : Bool) (inner : Level) : Level :=
        { dialect := d
          prior
          statement := statement inner
          query := query inner
          expr := expression inner
          linking := expression innerPrior }
      (level false inner, level true innerPrior)

/-- The readings that may nest as deep as a number says. -/
def levels (d : Dialect) (depth : Nat) : Level := (levelPair d depth).1

/-- How deep statements, queries and expressions may nest. -/
def maxDepth : Nat := 50

/-- Reads the statements of a text. -/
def parse (d : Dialect) (text : String) : Except SyntaxError (List Statement) :=
  match Lexer.lexemes d text with
  | .error e => .error (.lexical e)
  | .ok lexemes => ((statements (levels d maxDepth).statement).run lexemes).1

end TypedSql.Grammar
