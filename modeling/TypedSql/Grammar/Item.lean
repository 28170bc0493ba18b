import TypedSql.Grammar.Call

/-!
# Reading select items

The items of a select list or of a list of returned items: stars with their options, and expressions
with or without an alias.
-/

namespace TypedSql.Grammar

/-- Reads a name that is given to a column after the column itself. -/
def renamed : Parse String := do
  let w ← name
  expectKeyword "AS"
  return w.nameText ++ " AS " ++ (← name).nameText

/-- Reads one thing, or several in parentheses, as it is written. -/
def oneOrGroup (p : Parse String) : Parse String := do
  if ← atSymbol .leftParen then
    return "(" ++ ", ".intercalate (← parens (commaSeparated p)) ++ ")"
  else p

/-- Reads an expression that stands for a column, with the name of the column. -/
def replacement (inner : Level) : Parse (List Piece) := do
  let e ← inner.expr 0
  let sign := if ← keyword? "AS" then " AS " else " "
  return [.expr e, .text (sign ++ (← name).nameText)]

/-- Reads the option of a star that takes the columns with names like a pattern. -/
def likeOption? : Parse (Option (List Piece)) :=
  after? "ILIKE" do
    let found ← next
    match tokenOf found with
    | some (.string .plain .single content) =>
        return [.text (" ILIKE " ++ (Literal.string .plain .single content).text)]
    | _ => unexpected "ilike pattern" found

/-- Reads the option of a star that leaves columns out, told by one word or the other. -/
def exceptOption? : Parse (Option (List Piece)) :=
  after? "EXCEPT" do
    let names ← if ← atSymbol .leftParen then names? false else (fun w => [w]) <$> name
    return [.text (" EXCEPT (" ++ listed names ++ ")")]

/-- Reads the option of a star that replaces columns. -/
def replaceOption? (inner : Level) : Parse (Option (List Piece)) :=
  after? "REPLACE" do
    if ← atSymbol .leftParen then
      let entries ← parens (commaSeparated (replacement inner))
      return .text " REPLACE (" :: listedPieces entries ++ [.text ")"]
    else failHere "( after REPLACE but"

/-- Reads the options of a star. -/
def starOptions (inner : Level) : Parse (List Piece) := do
  let d := inner.dialect
  let like ← if d == .ansi then likeOption? else pure none
  let exclude ←
    if like.isNone && d == .ansi then
      after? "EXCLUDE" do
        return ([.text (" EXCLUDE " ++ (← oneOrGroup (Word.nameText <$> name)))] : List Piece)
    else pure none
  let except ← if d == .bigquery || d == .ansi then exceptOption? else pure none
  let replace ← if d == .bigquery || d == .ansi then replaceOption? inner else pure none
  let rename ←
    if d == .ansi then
      after? "RENAME" do
        return ([.text (" RENAME " ++ (← oneOrGroup renamed))] : List Piece)
    else pure none
  return ([like, exclude, except, replace, rename].filterMap id).flatten

/-- Whether an expression is the bare word that opens the list of tables. -/
def isFromWord (e : Expr) : Option Word :=
  match e with
  | .name w => if w.quote.isNone && w.value.toLower == "from" then some w else none
  | _ => none

/-- Reads an item. The word that opens the list of tables is no item, so that an empty list is an
error. -/
def selectItem (inner : Level) : Parse SelectItem := do
  match ← starred inner with
  | .star => return .wildcard (← starOptions inner)
  | .qualified names => return .qualifiedWildcard names (← starOptions inner)
  | .expr e =>
      match isFromWord e with
      | some w => refuseHere ("Expected an expression, found: " ++ w.nameText)
      | none =>
          match ← aliasWord? Keyword.reservedForColumn with
          | some w => return .aliased e w
          | none => return .plain e

/-- Reads items with commas between them. -/
def selectItems (inner : Level) : Parse (List SelectItem) := commaSeparated (selectItem inner)

/-- Takes the comma before another item of a select list. In one dialect a comma may also end the
list. -/
def anotherItem? (d : Dialect) : Parse Bool := do
  if ← symbol? .comma then
    if d == .bigquery then
      match ← peekToken 0 with
      | none => return false
      | some (.word w) => return !Keyword.reservedForColumn.contains w.keyword
      | some (.symbol s) =>
          return !([Symbol.rightParen, .semicolon, .rightBracket, .rightBrace].contains s)
      | _ => return true
    else return true
  else return false

/-- Reads a select list. -/
def selectList (inner : Level) : Parse (List SelectItem) :=
  rowWhile (selectItem inner) (anotherItem? inner.dialect)

/-- Reads the returned items, if there are any. -/
def returning? (inner : Level) : Parse (Option (List SelectItem)) :=
  after? "RETURNING" (selectItems inner)

end TypedSql.Grammar
