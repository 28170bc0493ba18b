import TypedSql.Grammar.Change

/-!
# Reading queries

Selects with their clauses, the operators that combine queries, and what stands before and after the
body of a query.
-/

namespace TypedSql.Grammar

/-! ## Clauses of a select -/

/-- Reads whether all rows or only distinct ones are selected. -/
def distinctRows (inner : Level) : Parse (List Piece) := do
  let position ← here
  let all ← keyword? "ALL"
  unless ← keyword? "DISTINCT" do return []
  if all then throw (.refused "Cannot specify both ALL and DISTINCT" position)
  if ← keyword? "ON" then
    let keys ← parens (commaSeparatedOrNone (inner.expr 0) .rightParen)
    return .text " DISTINCT ON (" :: listedExprs keys ++ [.text ")"]
  else return [.text " DISTINCT"]

/-- Reads how many of the first rows are selected, if it is said. -/
def top (inner : Level) : Parse (List Piece) := do
  unless ← keyword? "TOP" do return []
  let quantity ←
    if ← atSymbol .leftParen then do
      let e ← parens (inner.expr 0)
      pure [Piece.text " TOP (", .expr e, .text ")"]
    else do
      pure [Piece.text s!" TOP {← count}"]
  let percent := flagText (← keyword? "PERCENT") "PERCENT"
  let ties := flagText (← keywords? ["WITH", "TIES"]) "WITH TIES"
  return quantity ++ [.text (percent ++ ties)]

/-- Reads the table that the selected rows go into, if there is one. -/
def intoTable (d : Dialect) : Parse String := do
  unless ← keyword? "INTO" do return ""
  let temporary := (← oneOf? ["TEMP", "TEMPORARY"]).isSome
  let unlogged ← keyword? "UNLOGGED"
  let table ← keyword? "TABLE"
  let names ← objectNameIn d
  return " INTO" ++ flagText temporary "TEMPORARY" ++ flagText unlogged "UNLOGGED" ++
    flagText table "TABLE" ++ " " ++ dotted names

/-- Reads a column name of a lateral view. -/
def viewColumn : Parse (Option Word) :=
  aliasWord? ["WHERE", "GROUP", "CLUSTER", "HAVING", "LATERAL"]

/-- Reads a lateral view, if one is next. -/
def lateralView? (inner : Level) : Parse (Option (List Piece)) := do
  unless ← keywords? ["LATERAL", "VIEW"] do return none
  let outer := flagText (← keyword? "OUTER") "OUTER"
  let e ← inner.expr 0
  let view ← objectNameIn inner.dialect
  let columns := (← commaSeparated viewColumn).filterMap id
  let columns := if columns.isEmpty then "" else " AS " ++ listed columns
  return some [.text (" LATERAL VIEW" ++ outer ++ " "), .expr e,
    .text (" " ++ dotted view ++ columns)]

/-- Reads a set of expressions to group by. A set of one may stand without parentheses. -/
def groupSet (inner : Level) (bare : Bool) : Parse (List Piece) := do
  if bare && !(← atSymbol .leftParen) then return [.expr (← inner.expr 0)]
  let es ← parens (commaSeparatedOrNone (inner.expr 0) .rightParen)
  match es with
  | [e] => if bare then return [.expr e] else return [.text "(", .expr e, .text ")"]
  | es => return .text "(" :: listedExprs es ++ [.text ")"]

/-- Reads an expression to group by. -/
def groupItem (inner : Level) : Parse (List Piece) := do
  let d := inner.dialect
  unless d == .postgres || d == .ansi do return [.expr (← inner.expr 0)]
  let sets (opening : String) (bare : Bool) : Parse (List Piece) := do
    let sets ← parens (commaSeparated (groupSet inner bare))
    return .text opening :: listedPieces sets ++ [.text ")"]
  if ← keywords? ["GROUPING", "SETS"] then sets "GROUPING SETS (" false
  else if ← keyword? "CUBE" then sets "CUBE (" true
  else if ← keyword? "ROLLUP" then sets "ROLLUP (" true
  else if (← atSymbol .leftParen) && (← peekToken 1) == some (.symbol .rightParen) then
    skip
    skip
    return [.text "()"]
  else return [.expr (← inner.expr 0)]

/-- Reads a modifier of a grouping, if one is next. -/
def groupModifier? : Parse (Option (List Piece)) := do
  if ← keyword? "WITH" then
    return some [.text (" WITH " ++ (← expectOneOf ["ROLLUP", "CUBE", "TOTALS"]))]
  else return none

/-- Reads the grouping of a select, if it is there. -/
def grouping (inner : Level) : Parse (List Piece) := do
  unless ← keywords? ["GROUP", "BY"] do return []
  let items ←
    if ← keyword? "ALL" then pure [Piece.text "ALL"]
    else listedPieces <$> commaSeparated (groupItem inner)
  let modifiers ← if inner.dialect == .ansi then many groupModifier? else pure []
  return .text " GROUP BY " :: items ++ modifiers.flatten

/-- Reads a window that has a name. -/
def namedWindow (inner : Level) : Parse (List Piece) := do
  let w ← name
  expectKeyword "AS"
  if ← symbol? .leftParen then
    return .text (w.nameText ++ " AS (") :: (← windowSpec inner) ++ [.text ")"]
  else if inner.dialect == .bigquery || inner.dialect == .ansi then
    return [.text (w.nameText ++ " AS " ++ (← name).nameText)]
  else failHere "("

/-- Reads the windows of a select, if they are there. -/
def windows (inner : Level) : Parse (List Piece) := do
  let windows ← after? "WINDOW" (commaSeparated (namedWindow inner))
  return optionalPieces " WINDOW " (windows.map listedPieces) ""

/-- Reads the condition on windows of a select, if it is there. -/
def qualify (inner : Level) : Parse (List Piece) := do
  return optionalExpr " QUALIFY " (← after? "QUALIFY" (inner.expr 0))

/-- Reads the windows and the condition on them, in one order or the other. -/
def windowClauses (inner : Level) : Parse (List Piece) := do
  let first ← windows inner
  let condition ← qualify inner
  let last ← if first.isEmpty && !condition.isEmpty then windows inner else pure []
  return first ++ condition ++ last

/-- Reads a row of expressions after two keywords, if they are there. -/
def byClause (inner : Level) (word : String) : Parse (List Piece) := do
  return optionalPieces (" " ++ word ++ " BY ") (← afterAll? [word, "BY"] (exprs inner)) ""

/-- Reads how rows are linked to their parents, if it is said: the rows to start with, and the
conditions on a row and its parent, in one order or the other. -/
def hierarchy (inner : Level) : Parse (List Piece) := do
  let linked : Parse (List Piece) := listedExprs <$> commaSeparated (inner.linking 0)
  let start : Parse Expr := do
    expectKeywords ["START", "WITH"]
    inner.expr 0
  let text (first : Expr) (links : List Piece) : List Piece :=
    .text " START WITH " :: .expr first :: .text " CONNECT BY " :: links
  unless inner.dialect == .ansi && ["START", "CONNECT"].contains (← peekKeyword) do return []
  if ← keywords? ["CONNECT", "BY"] then
    let links ← linked
    return text (← start) links
  else
    let first ← start
    expectKeywords ["CONNECT", "BY"]
    return text first (← linked)

/-- Reads the clauses after the tables of a select. -/
def selectClauses (inner : Level) : Parse (List Piece) := do
  let views ← many (lateralView? inner)
  let early ← if inner.dialect == .ansi then after? "PREWHERE" (inner.expr 0) else pure none
  let condition ← where? inner
  let group ← grouping inner
  let cluster ← byClause inner "CLUSTER"
  let distribute ← byClause inner "DISTRIBUTE"
  let sort ← byClause inner "SORT"
  let having ← after? "HAVING" (inner.expr 0)
  let windows ← windowClauses inner
  let hierarchy ← hierarchy inner
  return views.flatten ++ optionalExpr " PREWHERE " early ++ optionalExpr " WHERE " condition ++
    group ++ cluster ++ distribute ++ sort ++ optionalExpr " HAVING " having ++ windows ++
    hierarchy

/-- Reads what kind of value a select of one value per row gives, if it is said. -/
def valueMode (d : Dialect) : Parse String := do
  if d == .bigquery && (← atKeywords ["AS"]) then
    skip
    match ← oneOf? ["VALUE", "STRUCT"] with
    | some word => return " AS " ++ word
    | none => failHere "VALUE or STRUCT"
  else return ""

/-- Reads a select after its first keyword. -/
def select (inner : Level) : Parse Select := do
  let d := inner.dialect
  let mode ← valueMode d
  let distinct ← distinctRows inner
  let top ← top inner
  let items ← selectList inner
  let into ← intoTable d
  let sources ← after? "FROM" (commaSeparated (tableWithJoins inner))
  let closing ← selectClauses inner
  return .mk mode (distinct ++ top) items into (sources.getD []) closing

/-! ## Bodies -/

/-- Reads a whole table after the word `TABLE`: a name, or two with a dot between. Three tokens are
taken in any case. -/
def wholeTable : Parse QueryBody := do
  let first ← next
  let second ← next
  let third ← next
  let word (found : Option Lexeme) (expected : String) : Parse String :=
    match tokenOf found with
    | some (.word w) => return w.value
    | _ => unexpected expected found
  if tokenOf second == some (.symbol .dot) then
    let schema ← word first "Schema name"
    let table ← word third "Table name"
    return .other [.text ("TABLE " ++ schema ++ "." ++ table)]
  else
    return .other [.text ("TABLE " ++ (← word first "Table name"))]

/-- Reads a body that is no combination of others. -/
def plainBody (inner : Level) : Parse QueryBody := do
  if ← keyword? "SELECT" then return .select (← select inner)
  else if ← atSymbol .leftParen then return .query (← parens inner.query)
  else if ← keyword? "VALUES" then return .other (← rows inner (inner.dialect == .mysql))
  else if ← keyword? "TABLE" then wholeTable
  else failHere "SELECT, VALUES, or a subquery in the query body"

/-- How tight an operator between bodies binds. -/
def setStrength (word : String) : Nat :=
  match word with
  | "UNION" | "EXCEPT" => 10
  | "INTERSECT" => 20
  | _ => 0

/-- Reads how an operator between bodies treats repeated rows and names. -/
def setQuantifier : Parse String := do
  if ← keywords? ["DISTINCT", "BY", "NAME"] then return " DISTINCT BY NAME"
  else if ← keywords? ["BY", "NAME"] then return " BY NAME"
  else if ← keywords? ["ALL", "BY", "NAME"] then return " ALL BY NAME"
  else if ← keyword? "ALL" then return " ALL"
  else if ← keyword? "DISTINCT" then return " DISTINCT"
  else return ""

/-- Reads on from a body while the operators between bodies bind tighter than a strength. The right
side of an operator is read by `right`. -/
def combinedFrom (least : Nat) (right : Nat → Parse QueryBody) :
    Nat → QueryBody → Parse QueryBody
  | 0, body => return body
  | fuel + 1, body => do
      let word ← peekKeyword
      if setStrength word ≤ least then return body
      else
        skip
        let quantifier ← setQuantifier
        let rightBody ← right (setStrength word)
        combinedFrom least right fuel (.combined body (word ++ quantifier) rightBody)

/-- Reads a body whose operators bind tighter than `INTERSECT`, so one without operators. -/
def tightBody (inner : Level) : Parse QueryBody := plainBody inner

/-- Reads a body whose only operator is `INTERSECT`. -/
def intersections (inner : Level) : Parse QueryBody := do
  combinedFrom 10 (fun _ => tightBody inner) ((← remaining) + 1) (← plainBody inner)

/-- Reads a body. The right side of an operator holds only operators that bind tighter. -/
def body (inner : Level) : Parse QueryBody := do
  combinedFrom 0
    (fun strength => if strength < 20 then intersections inner else tightBody inner)
    ((← remaining) + 1) (← plainBody inner)

/-! ## Queries -/

/-- Reads whether a named query is kept as a table, where the dialect lets it be said. -/
def keptRows (d : Dialect) : Parse String := do
  unless d == .postgres do return ""
  if ← keyword? "MATERIALIZED" then return "MATERIALIZED "
  else if ← keywords? ["NOT", "MATERIALIZED"] then return "NOT MATERIALIZED "
  else return ""

/-- Reads a query that has a name. -/
def namedQuery (inner : Level) : Parse (List Piece) := do
  let d := inner.dialect
  let w ← name
  let columns ←
    if ← keyword? "AS" then pure []
    else do
      let columns ← aliasColumns d
      expectKeyword "AS"
      pure columns
  let kept ← keptRows d
  let q ← parens inner.query
  let source ← after? "FROM" name
  let source := match source with
    | some w => " FROM " ++ w.nameText
    | none => ""
  return [.text ((TableAlias.mk w columns).text ++ " AS " ++ kept ++ "("), .query q,
    .text (")" ++ source)]

/-- Reads the named queries before a query, if there are any. -/
def namedQueries (inner : Level) : Parse (List Piece) := do
  unless ← keyword? "WITH" do return []
  let recursive := flagText (← keyword? "RECURSIVE") "RECURSIVE"
  let queries ← commaSeparated (namedQuery inner)
  return .text ("WITH" ++ recursive ++ " ") :: listedPieces queries ++ [.text " "]

/-- Reads how many rows are passed over, after the word `OFFSET`. -/
def offset (inner : Level) : Parse (List Piece) := do
  let e ← inner.expr 0
  let unit := match ← oneOf? ["ROW", "ROWS"] with
    | some word => " " ++ word
    | none => ""
  return [.text " OFFSET ", .expr e, .text unit]

/-- A limit and an offset, as far as they are read. -/
structure Bounds where
  limit : Option Expr
  offset : Option (List Piece)

/-- Reads a limit and an offset, each if it is there and not read before. -/
def boundsOnce (inner : Level) (b : Bounds) : Parse Bounds := do
  let d := inner.dialect
  let limit ←
    if b.limit.isNone then
      if ← keyword? "LIMIT" then limit inner else pure none
    else pure b.limit
  let offset ←
    if b.offset.isNone then
      if ← keyword? "OFFSET" then some <$> offset inner else pure none
    else pure b.offset
  match limit, offset with
  | some first, none =>
      if (d == .mysql || d == .sqlite || d == .ansi) && (← atSymbol .comma) then
        skip
        return ⟨some (← inner.expr 0), some [.text " OFFSET ", .expr first]⟩
      else return ⟨limit, offset⟩
  | _, _ => return ⟨limit, offset⟩

/-- Reads a limit and an offset in one order or the other. -/
def bounds (inner : Level) : Parse (List Piece) := do
  let b ← boundsOnce inner ⟨none, none⟩
  let b ← boundsOnce inner b
  return optionalExpr " LIMIT " b.limit ++ b.offset.getD []

/-- Reads how many rows are fetched, after the word `FETCH`. -/
def fetch : Parse (List Piece) := do
  discard <| expectOneOf ["FIRST", "NEXT"]
  let quantity ←
    if (← oneOf? ["ROW", "ROWS"]).isSome then pure []
    else do
      let value ← constant
      let percent := flagText (← keyword? "PERCENT") "PERCENT"
      discard <| expectOneOf ["ROW", "ROWS"]
      pure [Piece.text " ", .expr (.literal value), .text percent]
  let extent ←
    if ← keyword? "ONLY" then pure "ONLY"
    else if ← keywords? ["WITH", "TIES"] then pure "WITH TIES"
    else failHere "one of ONLY or WITH TIES"
  return .text " FETCH FIRST" :: quantity ++ [.text (" ROWS " ++ extent)]

/-- Reads a lock on rows after the word `FOR`. -/
def lock (d : Dialect) : Parse String := do
  let kind ← expectOneOf ["UPDATE", "SHARE"]
  let target := match ← after? "OF" (objectNameIn d) with
    | some names => " OF " ++ dotted names
    | none => ""
  let wait ←
    if ← keyword? "NOWAIT" then pure " NOWAIT"
    else if ← keywords? ["SKIP", "LOCKED"] then pure " SKIP LOCKED"
    else pure ""
  return " FOR " ++ kind ++ target ++ wait

/-- Reads a text in parentheses, as it stands in a call. -/
def textArgument (d : Dialect) : Parse String := do
  return "('" ++ (← parens (stringLiteral d)) ++ "')"

/-- Reads the rest of a form of the rows after a comma, for each comma. What an option that is known
adds is told by its word; an option that is not known is passed over. -/
def formOptions (known : Parse (Option (String × String))) : Parse (List (String × String)) := do
  let options ← many do
    if ← symbol? .comma then return some (← known)
    else return none
  return options.filterMap id

/-- The last of the options with a word. -/
def lastOption (options : List (String × String)) (word : String) : String :=
  ((options.filter (·.1 == word)).getLast?.map (·.2)).getD ""

/-- Reads an option of rows as XML. -/
def xmlOption? (d : Dialect) : Parse (Option (String × String)) := do
  if ← keyword? "ELEMENTS" then return some ("ELEMENTS", ", ELEMENTS")
  else if ← keyword? "BINARY" then
    expectKeyword "BASE64"
    return some ("BINARY", ", BINARY BASE64")
  else if ← keyword? "ROOT" then return some ("ROOT", ", ROOT" ++ (← textArgument d))
  else if ← keyword? "TYPE" then return some ("TYPE", ", TYPE")
  else return none

/-- Reads how rows are written as XML. -/
def xmlForm (d : Dialect) : Parse String := do
  let element : Parse String := do
    if ← atSymbol .leftParen then textArgument d else return ""
  let form ←
    match ← oneOf? ["RAW", "AUTO", "EXPLICIT", "PATH"] with
    | some "RAW" => do pure ("RAW" ++ (← element))
    | some "PATH" => do pure ("PATH" ++ (← element))
    | some word => pure word
    | none => throw (.refused "Expected FOR XML [RAW | AUTO | EXPLICIT | PATH ]" none)
  let options ← formOptions (xmlOption? d)
  return " FOR XML " ++ form ++ lastOption options "BINARY" ++ lastOption options "TYPE" ++
    lastOption options "ROOT" ++ lastOption options "ELEMENTS"

/-- Reads an option of rows as JSON. -/
def jsonOption? (d : Dialect) : Parse (Option (String × String)) := do
  if ← keyword? "ROOT" then return some ("ROOT", ", ROOT" ++ (← textArgument d))
  else
    match ← oneOf? ["INCLUDE_NULL_VALUES", "WITHOUT_ARRAY_WRAPPER"] with
    | some word => return some (word, ", " ++ word)
    | none => return none

/-- Reads how rows are written as JSON. -/
def jsonForm (d : Dialect) : Parse String := do
  match ← oneOf? ["AUTO", "PATH"] with
  | some word =>
      let options ← formOptions (jsonOption? d)
      return " FOR JSON " ++ word ++ lastOption options "ROOT" ++
        lastOption options "INCLUDE_NULL_VALUES" ++ lastOption options "WITHOUT_ARRAY_WRAPPER"
  | none => throw (.refused "Expected FOR JSON [AUTO | PATH ]" none)

/-- Reads locks on rows as long as one is next, after those read before. How the rows are written
ends the locks. -/
def purposes (d : Dialect) : Nat → String → Parse String
  | 0, done => return done
  | fuel + 1, done => do
      unless ← keyword? "FOR" do return done
      if ← keyword? "XML" then return done ++ (← xmlForm d)
      else if ← keyword? "JSON" then return done ++ (← jsonForm d)
      else if ← keyword? "BROWSE" then return done ++ " FOR BROWSE"
      else purposes d fuel (done ++ (← lock d))

/-- Reads the format of the rows, if it is said. -/
def format (d : Dialect) : Parse (List Piece) := do
  if d == .ansi && (← atKeywords ["FORMAT"]) then
    skip
    if ← keyword? "NULL" then return [.text " FORMAT NULL"]
    else return [.text (" FORMAT " ++ (← name).nameText)]
  else return []

/-- Reads the value of a column in rows that were filled in. -/
def interpolation (inner : Level) : Parse (List Piece) := do
  let w ← name
  return .text w.nameText :: optionalExpr " AS " (← after? "AS" (inner.expr 0))

/-- Reads the values of columns in rows that were filled in, if they are said. -/
def interpolations (inner : Level) : Parse (List Piece) := do
  unless inner.dialect == .ansi do return []
  unless ← keyword? "INTERPOLATE" do return []
  if ← atSymbol .leftParen then
    let columns ← parens (commaSeparatedOrNone (interpolation inner) .rightParen)
    return .text " INTERPOLATE (" :: listedPieces columns ++ [.text ")"]
  else return [.text " INTERPOLATE"]

/-- Reads the order of the rows, if it is said. -/
def rowOrder (inner : Level) : Parse (List Piece) := do
  unless ← keywords? ["ORDER", "BY"] do return []
  let order ← orderItems inner
  return .text " ORDER BY " :: order ++ (← interpolations inner)

/-- Reads what follows the body of a query. -/
def queryClosing (inner : Level) : Parse (List Piece) := do
  let d := inner.dialect
  let order ← rowOrder inner
  let bounds ← bounds inner
  let perKey ← if d == .ansi then after? "BY" (exprs inner) else pure none
  let settings ← if d == .ansi then after? "SETTINGS" settings else pure none
  let fetched ← after? "FETCH" fetch
  let purposes ← purposes d ((← remaining) + 1) ""
  let format ← format d
  return order ++ bounds ++ optionalPieces " BY " perKey "" ++
    optionalPieces " SETTINGS " settings "" ++ fetched.getD [] ++ .text purposes :: format

/-- Reads a query. -/
def query (inner : Level) : Parse Query := do
  let opening ← namedQueries inner
  if ← keyword? "INSERT" then
    match ← insert inner with
    | .table i => return .mk opening (.insert i) []
    | .directory pieces => return .mk opening (.other pieces) []
  else if ← keyword? "UPDATE" then return .mk opening (.update (← update inner)) []
  else
    let body ← body inner
    return .mk opening body (← queryClosing inner)

end TypedSql.Grammar
