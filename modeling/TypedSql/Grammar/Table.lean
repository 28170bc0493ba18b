import TypedSql.Grammar.Operator
import TypedSql.Grammar.RowPattern

/-!
# Reading table references

Named tables, queries and functions in the place of tables, tables joined to one another, and what
may follow them.
-/

namespace TypedSql.Grammar

/-! ## Rows -/

/-- Reads one row of values, which may be empty where the dialect lets it. -/
def row (inner : Level) (mayBeEmpty : Bool) : Parse (Bool × List Piece) := do
  let marked ← keyword? "ROW"
  expectSymbol .leftParen
  let values ←
    if mayBeEmpty then commaSeparatedOrNone (inner.expr 0) .rightParen
    else commaSeparated (inner.expr 0)
  expectSymbol .rightParen
  return (marked, listedExprs values)

/-- Reads rows of values after the word `VALUES`. -/
def rows (inner : Level) (mayBeEmpty : Bool) : Parse (List Piece) := do
  let rows ← commaSeparated (row inner mayBeEmpty)
  let opening := if rows.any (·.1) then "ROW(" else "("
  return .text "VALUES " ::
    listedPieces (rows.map fun (_, values) => .text opening :: values ++ [.text ")"])

/-! ## Aliases and arguments -/

/-- Reads a column of a table alias, which may have a type. -/
def aliasColumn (d : Dialect) : Parse String := do
  let w ← name
  match ← maybe (typeName d) with
  | some type => return w.nameText ++ " " ++ type.text
  | none => return w.nameText

/-- Reads the columns of a table alias, if they are there. -/
def aliasColumns (d : Dialect) : Parse (List String) := do
  if ← atSymbol .leftParen then parens (commaSeparated (aliasColumn d))
  else return []

/-- Reads a table alias, if it is there. -/
def tableAlias? (d : Dialect) : Parse (Option TableAlias) := do
  match ← aliasWord? Keyword.reservedForTable with
  | some w => return some ⟨w, ← aliasColumns d⟩
  | none => return none

/-- Reads settings after their keyword. -/
def settings : Parse (List Piece) := do
  let entries ← commaSeparated do
    let w ← name
    expectSymbol .equal
    let value ← constant
    return ([.text (w.nameText ++ " = "), .expr (.literal value)] : List Piece)
  return listedPieces entries

/-- Reads the arguments of a table as far as the closing parenthesis, after those read before. -/
def tableArguments (inner : Level) : Nat → List (List Piece) → Parse (List Piece)
  | 0, done => return listedPieces done.reverse
  | fuel + 1, done => do
      if inner.dialect == .ansi && (← atKeywords ["SETTINGS"]) then
        skip
        let pairs ← settings
        expectSymbol .rightParen
        let blank := if done.isEmpty then "" else ", "
        return listedPieces done.reverse ++ .text (blank ++ "SETTINGS ") :: pairs
      let pieces ← argument inner
      if ← symbol? .comma then tableArguments inner fuel (pieces :: done)
      else
        expectSymbol .rightParen
        return listedPieces (pieces :: done).reverse

/-- Reads the arguments of a table, if they are there. -/
def tableArguments? (inner : Level) : Parse (Option (List Piece)) := do
  if ← symbol? .leftParen then
    if ← symbol? .rightParen then return some []
    else return some (← tableArguments inner ((← remaining) + 1) [])
  else return none

/-! ## Turned tables -/

/-- Reads a call whose values are spread over columns, with its alias. -/
def spreadCall (inner : Level) : Parse (List Piece) := do
  let function ←
    match tokenOf (← next) with
    | some (.word w) => pure w.value
    | _ => failHere "a function identifier"
  let pieces ← callPieces inner [⟨function, none⟩]
  match ← after? "AS" name with
  | some w => return pieces ++ [.text (" AS " ++ w.nameText)]
  | none => return pieces

/-- Reads an expression that may have an alias after the word `AS`. -/
def aliasedExpr (inner : Level) : Parse (List Piece) := do
  let e ← inner.expr 0
  match ← after? "AS" name with
  | some w => return [.expr e, .text (" AS " ++ w.nameText)]
  | none => return [.expr e]

/-- Reads the values that become columns. -/
def spreadValues (inner : Level) : Parse (List Piece) := do
  if ← keyword? "ANY" then
    let order ← afterAll? ["ORDER", "BY"] (orderItems inner)
    return .text "ANY" :: optionalPieces " ORDER BY " order ""
  else if ← atQuery then return [.query (← inner.query)]
  else listedPieces <$> commaSeparated (aliasedExpr inner)

/-- A table as a piece of a clause. -/
def factorPiece (t : TableFactor) : Piece := .table (.mk t [])

/-- Reads a table with rows turned into columns, after the word `PIVOT`. -/
def pivot (inner : Level) (t : TableFactor) : Parse TableFactor := do
  expectSymbol .leftParen
  let calls ← commaSeparated (spreadCall inner)
  expectKeyword "FOR"
  let column ← objectNameIn inner.dialect
  expectKeyword "IN"
  let values ← parens (spreadValues inner)
  let otherwise ← afterAll? ["DEFAULT", "ON", "NULL"] (parens (inner.expr 0))
  expectSymbol .rightParen
  let tableAlias ← tableAlias? inner.dialect
  let otherwise := match otherwise with
    | some e => [Piece.text " DEFAULT ON NULL (", .expr e, .text ")"]
    | none => []
  return .other (factorPiece t :: .text " PIVOT(" :: listedPieces calls ++
    .text (" FOR " ++ dotted column ++ " IN (") :: values ++ .text ")" :: otherwise ++
    [.text ")"]) tableAlias []

/-- Reads a table with columns turned into rows, after the word `UNPIVOT`. -/
def unpivot (inner : Level) (t : TableFactor) : Parse TableFactor := do
  expectSymbol .leftParen
  let value ← name
  expectKeyword "FOR"
  let label ← name
  expectKeyword "IN"
  let columns ← nameGroup
  expectSymbol .rightParen
  let tableAlias ← tableAlias? inner.dialect
  return .other [factorPiece t, .text (" UNPIVOT(" ++ value.nameText ++ " FOR " ++
    label.nameText ++ " IN (" ++ listed columns ++ "))")] tableAlias []

/-- Reads the turns after a table. -/
def turned (inner : Level) : Nat → TableFactor → Parse TableFactor
  | 0, t => return t
  | fuel + 1, t => do
      if ← keyword? "PIVOT" then turned inner fuel (← pivot inner t)
      else if ← keyword? "UNPIVOT" then turned inner fuel (← unpivot inner t)
      else return t

/-! ## Tables of a kind of their own -/

/-- Reads a query in the place of a table, after its opening parenthesis. -/
def derived (inner : Level) (opening : String) : Parse TableFactor := do
  let q ← inner.query
  expectSymbol .rightParen
  return .other [.text opening, .query q, .text ")"] (← tableAlias? inner.dialect) []

/-- Reads a table that may refer to the tables before it, after the word `LATERAL`. -/
def lateral (inner : Level) : Parse TableFactor := do
  if ← symbol? .leftParen then derived inner "LATERAL ("
  else
    let function ← objectNameIn inner.dialect
    expectSymbol .leftParen
    let args ← commaSeparatedOrNone (argument inner) .rightParen
    expectSymbol .rightParen
    return .other (.text ("LATERAL " ++ dotted function ++ "(") :: listedPieces args ++
      [.text ")"]) (← tableAlias? inner.dialect) []

/-- Reads arrays in the place of a table, after the word `UNNEST`. -/
def unnest (inner : Level) : Parse TableFactor := do
  let arrays ← parens (exprs inner)
  let ordinality := if ← keywords? ["WITH", "ORDINALITY"] then " WITH ORDINALITY" else ""
  let tableAlias ← tableAlias? inner.dialect
  let closing ←
    if ← keyword? "WITH" then
      if ← keyword? "OFFSET" then
        match ← aliasWord? Keyword.reservedForColumn with
        | some w => pure [Piece.text (" WITH OFFSET AS " ++ w.nameText)]
        | none => pure [Piece.text " WITH OFFSET"]
      else pure []
    else pure []
  return .other (.text "UNNEST(" :: arrays ++ [.text (")" ++ ordinality)]) tableAlias closing

/-- Reads what a column of JSON is where there is no value or an error, if it is said. The first
result tells that it is said of no value. -/
def jsonFallback? : Parse (Option (Bool × String)) := do
  let value ←
    match ← oneOf? ["NULL", "ERROR", "DEFAULT"] with
    | some "DEFAULT" => pure ("DEFAULT " ++ (← constant).text)
    | some word => pure word
    | none => return none
  expectKeyword "ON"
  if ← keyword? "EMPTY" then return some (true, " " ++ value ++ " ON EMPTY")
  else
    expectKeyword "ERROR"
    return some (false, " " ++ value ++ " ON ERROR")

/-- Of what is said of no value, and of an error, the last counts. -/
def fallbackText (fallbacks : List (Bool × String)) : String :=
  let last (ofNone : Bool) := ((fallbacks.filter (·.1 == ofNone)).getLast?.map (·.2)).getD ""
  last true ++ last false

/-- Reads a column that is taken out of JSON. -/
def jsonColumn (d : Dialect) : Nat → Parse String
  | 0 => throw .tooDeep
  | fuel + 1 => do
      if ← keyword? "NESTED" then
        discard <| keyword? "PATH"
        let path ← constant
        expectKeyword "COLUMNS"
        let columns ← parens (commaSeparated (jsonColumn d fuel))
        return "NESTED PATH " ++ path.text ++ " COLUMNS (" ++ ", ".intercalate columns ++ ")"
      let w ← name
      if ← keyword? "FOR" then
        expectKeyword "ORDINALITY"
        return w.nameText ++ " FOR ORDINALITY"
      let type ← typeName d
      let test := if ← keyword? "EXISTS" then " EXISTS" else ""
      expectKeyword "PATH"
      let path ← constant
      let fallbacks ← many jsonFallback?
      return w.nameText ++ " " ++ type.text ++ test ++ " PATH " ++ path.text ++
        fallbackText fallbacks

/-- Reads JSON in the place of a table, after the word `JSON_TABLE`. -/
def jsonTable (inner : Level) : Parse TableFactor := do
  expectSymbol .leftParen
  let e ← inner.expr 0
  expectSymbol .comma
  let path ← constant
  expectKeyword "COLUMNS"
  let columns ← parens (commaSeparated (jsonColumn inner.dialect ((← remaining) + 1)))
  expectSymbol .rightParen
  return .other [.text "JSON_TABLE(", .expr e, .text (", " ++ path.text ++ " COLUMNS(" ++
    ", ".intercalate columns ++ "))")] (← tableAlias? inner.dialect) []

/-- Reads a column that is taken out of JSON by a path of its own. -/
def openedColumn (d : Dialect) : Parse String := do
  let w ← name
  let type ← typeName d
  let path ←
    match ← peekToken 0 with
    | some (.string .plain .single content) => do
        skip
        pure (" " ++ quotedValue content)
    | _ => pure ""
  if ← keyword? "AS" then
    expectKeyword "JSON"
    return w.nameText ++ " " ++ type.text ++ path ++ " AS JSON"
  else return w.nameText ++ " " ++ type.text ++ path

/-- Reads JSON in the place of a table, after the word `OPENJSON`. -/
def openedJson (inner : Level) : Parse TableFactor := do
  expectSymbol .leftParen
  let e ← inner.expr 0
  let path ←
    if ← symbol? .comma then do pure (", " ++ (← constant).text)
    else pure ""
  expectSymbol .rightParen
  let columns ←
    if ← keyword? "WITH" then do
      let columns ← parens (commaSeparated (openedColumn inner.dialect))
      pure (" WITH (" ++ ", ".intercalate columns ++ ")")
    else pure ""
  return .other [.text "OPENJSON(", .expr e, .text (path ++ ")" ++ columns)]
    (← tableAlias? inner.dialect) []

/-- Reads a table that is known by its name. -/
def namedTable (inner : Level) : Parse TableFactor := do
  let d := inner.dialect
  let names ← tableName d
  let partitions ←
    if (d == .mysql || d == .ansi) && (← atKeywords ["PARTITION"]) then do
      skip
      parens (commaSeparated name)
    else pure []
  let version ←
    if d == .bigquery then afterAll? ["FOR", "SYSTEM_TIME", "AS", "OF"] (inner.expr 0)
    else pure none
  let args ← tableArguments? inner
  let ordinality ← keywords? ["WITH", "ORDINALITY"]
  let tableAlias ← tableAlias? d
  let hints ←
    if (← atKeywords ["WITH"]) && (← peekToken 1) == some (.symbol .leftParen) then do
      skip
      some <$> parens (exprs inner)
    else pure none
  let closing := optionalPieces " WITH (" hints ")" ++
    optionalExpr " FOR SYSTEM_TIME AS OF " version
  let t ← turned inner ((← remaining) + 1)
    (.named names partitions args ordinality tableAlias closing)
  if d == .ansi && (← atKeywords ["MATCH_RECOGNIZE"]) then
    skip
    let rowMatches ← rowMatches inner
    return .other (factorPiece t :: rowMatches) (← tableAlias? d) []
  else return t

/-! ## Joins -/

/-- Reads the condition of a join. A natural join has none. -/
def joinCondition (inner : Level) (natural : Bool) : Parse (List Piece) := do
  if natural then return []
  else if ← keyword? "ON" then return [.text " ON ", .expr (← inner.expr 0)]
  else if ← keyword? "USING" then return [.text (" USING(" ++ listed (← nameGroup) ++ ")")]
  else return []

/-- Reads the words of a join to one side. -/
def sidedWords (side : String) : Parse (Option String) := do
  skip
  match ← oneOf? ["OUTER", "SEMI", "ANTI", "JOIN"] with
  | some "JOIN" => return some (side ++ " JOIN")
  | some "OUTER" =>
      expectKeyword "JOIN"
      return some (side ++ " JOIN")
  | some word =>
      expectKeyword "JOIN"
      return some (side ++ " " ++ word ++ " JOIN")
  | none => throw (.refused ("expected OUTER, SEMI, ANTI or JOIN after " ++ side) none)

/-- Reads the words of a join that may have a condition, if a join is next. -/
def joinWords? (natural : Bool) : Parse (Option String) := do
  match ← peekKeyword with
  | "INNER" | "JOIN" =>
      discard <| keyword? "INNER"
      expectKeyword "JOIN"
      return some "JOIN"
  | "LEFT" => sidedWords "LEFT"
  | "RIGHT" => sidedWords "RIGHT"
  | "ANTI" =>
      skip
      expectKeyword "JOIN"
      return some "ANTI JOIN"
  | "SEMI" =>
      skip
      expectKeyword "JOIN"
      return some "SEMI JOIN"
  | "FULL" =>
      skip
      discard <| keyword? "OUTER"
      expectKeyword "JOIN"
      return some "FULL JOIN"
  | "OUTER" => failHere "LEFT, RIGHT, or FULL"
  | _ => if natural then failHere "a join type after NATURAL" else return none

/-- Reads a joined table, if a join is next. -/
def join? (inner : Level) (factor : Parse TableFactor) : Parse (Option Join) := do
  let global := if ← keyword? "GLOBAL" then "GLOBAL " else ""
  if ← keyword? "CROSS" then
    match ← oneOf? ["JOIN", "APPLY"] with
    | some word => return some (.mk (global ++ "CROSS " ++ word) (← factor) [])
    | none => failHere "JOIN or APPLY after CROSS"
  else if ← keyword? "OUTER" then
    expectKeyword "APPLY"
    return some (.mk (global ++ "OUTER APPLY") (← factor) [])
  else if ← keyword? "ASOF" then
    expectKeyword "JOIN"
    let right ← factor
    expectKeyword "MATCH_CONDITION"
    let condition ← parens (inner.expr 0)
    let rest ← joinCondition inner false
    return some (.mk (global ++ "ASOF JOIN") right
      (.text " MATCH_CONDITION (" :: .expr condition :: .text ")" :: rest))
  else
    let natural ← keyword? "NATURAL"
    match ← joinWords? natural with
    | some words =>
        let right ← factor
        let condition ← joinCondition inner natural
        let words := if natural then "NATURAL " ++ words else words
        return some (.mk (global ++ words) right condition)
    | none => return none

/-- Reads a table and the tables joined to it. -/
def joinedTables (inner : Level) (factor : Parse TableFactor) : Parse TableWithJoins := do
  let first ← factor
  return .mk first (← many (join? inner factor))

/-! ## Tables -/

/-- The alias of a table. -/
def factorAlias : TableFactor → Option TableAlias
  | .named _ _ _ _ tableAlias _ => tableAlias
  | .joined _ tableAlias => tableAlias
  | .other _ tableAlias _ => tableAlias

/-- A table under an alias. -/
def underAlias (tableAlias : TableAlias) : TableFactor → TableFactor
  | .named names partitions args ordinality _ closing =>
      .named names partitions args ordinality (some tableAlias) closing
  | .joined t _ => .joined t (some tableAlias)
  | .other pieces _ closing => .other pieces (some tableAlias) closing

/-- Reads tables in parentheses, after the opening one. A table on its own in parentheses is a table
in one dialect and an error in the others. -/
def nestedTables (inner : Level) (factor : Parse TableFactor) : Parse TableFactor := do
  let d := inner.dialect
  let t ← joinedTables inner factor
  let group : Bool := match t with
    | .mk (.joined _ _) _ => true
    | .mk _ joins => !joins.isEmpty
  if group then
    expectSymbol .rightParen
    return .joined t (← tableAlias? d)
  else if d == .ansi then
    expectSymbol .rightParen
    match ← tableAlias? d, factorAlias t.first with
    | some _, some own => throw (.refused ("duplicate alias " ++ own.text) none)
    | some tableAlias, none => return underAlias tableAlias t.first
    | none, _ => return t.first
  else failHere "joined table"

/-- Reads a table reference. The number bounds how deep parentheses nest. -/
def tableFactor (inner : Level) : Nat → Parse TableFactor
  | 0 => throw .tooDeep
  | fuel + 1 => do
      let d := inner.dialect
      if ← keyword? "LATERAL" then lateral inner
      else if ← keyword? "TABLE" then
        let e ← parens (inner.expr 0)
        return .other [.text "TABLE(", .expr e, .text ")"] (← tableAlias? d) []
      else if ← symbol? .leftParen then
        match ← maybe (derived inner "(") with
        | some t => turned inner ((← remaining) + 1) t
        | none => nestedTables inner (tableFactor inner fuel)
      else
        let grouped := (← peekToken 1) == some (.symbol .leftParen)
        let word ← peekKeyword
        if word == "VALUES" && grouped && d == .ansi then
          skip
          let pieces ← rows inner false
          return .other (.text "(" :: pieces ++ [.text ")"]) (← tableAlias? d) []
        else if word == "UNNEST" && (d == .postgres || d == .bigquery || d == .ansi) then
          skip
          unnest inner
        else if word == "JSON_TABLE" && grouped then
          skip
          jsonTable inner
        else if word == "OPENJSON" && grouped then
          skip
          openedJson inner
        else namedTable inner

/-- Reads a table with the tables joined to it. -/
def tableWithJoins (inner : Level) : Parse TableWithJoins := do
  joinedTables inner (tableFactor inner ((← remaining) + 1))

end TypedSql.Grammar
