import TypedSql.Grammar.Query

/-!
# Reading options of definitions

The small parts that many definitions share: options in parentheses, conditions on objects that are
there or missing, and what happens to objects that depend on another. Of these parts nothing is
kept; they are read to tell whether a definition is well formed and where it ends.
-/

namespace TypedSql.Grammar

/-- Takes keywords if they are next, be they known to the dialect or not, and tells whether they are
next and known. -/
def known? (isKnown : Bool) (words : List String) : Parse Bool :=
  return (← keywords? words) && isKnown

/-! ## Options in parentheses -/

/-- Reads how the rows of a table are parted into ranges. -/
def rangeOption (inner : Level) : Parse Unit := do
  expectKeyword "PARTITION"
  parens do
    discard name
    expectKeyword "RANGE"
    unless ← keyword? "LEFT" do discard <| keyword? "RIGHT"
    expectKeywords ["FOR", "VALUES"]
    discard <| parens (exprs inner)

/-- Reads an index that the rows of a table are kept in. -/
def clusteredOption : Parse Unit := do
  if ← keywords? ["CLUSTERED", "COLUMNSTORE", "INDEX"] then
    if ← keyword? "ORDER" then discard nameGroup
  else if ← keywords? ["CLUSTERED", "INDEX"] then
    discard <| parens <| commaSeparated do
      discard name
      discard <| oneOf? ["ASC", "DESC"]
  else throw (.refused "invalid CLUSTERED sequence" none)

/-- Reads an option: a name with a value, or a form that one dialect has. -/
def option (inner : Level) : Parse Unit := do
  match inner.dialect, ← peekKeyword with
  | .ansi, "HEAP" => skip
  | .ansi, "PARTITION" => rangeOption inner
  | .ansi, "CLUSTERED" => clusteredOption
  | _, _ =>
      discard name
      expectSymbol .equal
      discard <| inner.expr 0

/-- Reads options in parentheses after keywords, and tells whether they are there. -/
def options? (inner : Level) (words : List String) : Parse Bool := do
  if ← keywords? words then
    discard <| parens (commaSeparated (option inner))
    return true
  else return false

/-! ## Conditions -/

/-- Takes the words that let an object be there already. -/
def ifNotExists? : Parse Bool := keywords? ["IF", "NOT", "EXISTS"]

/-- Takes the words that let an object be missing. -/
def ifExists? : Parse Bool := keywords? ["IF", "EXISTS"]

/-- Takes what happens to dependent objects, if it is said. -/
def dropBehavior : Parse Unit := discard <| oneOf? ["CASCADE", "RESTRICT"]

/-- Reads the cluster that a definition holds for, if it is said. -/
def onCluster : Parse Unit := do
  if ← keywords? ["ON", "CLUSTER"] then discard name

/-! ## Choices made once -/

/-- Reads on as long as a part is next, with the names of the parts read before. -/
def onceFrom (part? : List String → Parse (Option String)) : Nat → List String → Parse Unit
  | 0, _ => return
  | fuel + 1, seen => do
      match ← part? seen with
      | some label => onceFrom part? fuel (label :: seen)
      | none => return

/-- Reads parts as long as one is next. Each part is told the names of those read before and gives a
name of its own, so that it can be there only once. -/
def eachOnce (part? : List String → Parse (Option String)) : Parse Unit := do
  onceFrom part? ((← remaining) + 1) []

end TypedSql.Grammar
