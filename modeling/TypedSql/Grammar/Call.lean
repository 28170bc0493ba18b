import TypedSql.Grammar.Interval

/-!
# Reading calls

Calls of functions with their arguments, and what may follow the arguments: orders, filters and
windows.
-/

namespace TypedSql.Grammar

/-! ## Stars -/

/-- An expression, or a star for all columns. -/
inductive Starred
  | star
  | qualified (names : List Word)
  | expr (e : Expr)

/-- A star or an expression as a piece of a clause. -/
def Starred.pieces : Starred → List Piece
  | star => [.text "*"]
  | qualified names => [.text (dotted names ++ ".*")]
  | expr e => [.expr e]

/-- Reads the names after the dots that follow a name, up to a star if there is one. -/
def namesAfter : Nat → List Word → Parse (List Word × Bool)
  | 0, done => return (done.reverse, false)
  | fuel + 1, done => do
      if ← symbol? .dot then
        let found ← next
        match tokenOf found with
        | some (.word w) => namesAfter fuel (w :: done)
        | some (.string .plain .single content) => namesAfter fuel (⟨content, some '\x27'⟩ :: done)
        | some (.symbol .star) => return (done.reverse, true)
        | _ => unexpected "an identifier or a '*' after '.'" found
      else return (done.reverse, false)

/-- The name that starts a dotted name, if one does. -/
def dottedStart? : Parse (Option Word) := do
  if (← peekToken 1) != some (.symbol .dot) then return none
  match ← peekToken 0 with
  | some (.word w) => return some w
  | some (.string .plain .single content) => return some ⟨content, some '\x27'⟩
  | _ => return none

/-- Reads names with dots between them before a star, if they are there. -/
def qualifiedStar? : Parse (Option (List Word)) := unlessNone do
  match ← dottedStart? with
  | some first =>
      skip
      let (names, star) ← namesAfter ((← remaining) + 1) [first]
      return if star then some names else none
  | none => return none

/-- Reads a star, a name with a star, or an expression. -/
def starred (inner : Level) : Parse Starred := do
  if ← symbol? .star then return .star
  match ← qualifiedStar? with
  | some names => return .qualified names
  | none => return .expr (← inner.expr 0)

/-! ## Orders -/

/-- Reads an expression to order by. -/
def orderItem (inner : Level) : Parse (List Piece) := do
  let e ← inner.expr 0
  let direction ←
    match ← oneOf? ["ASC", "DESC"] with
    | some word => pure (" " ++ word)
    | none => pure ""
  let nulls ←
    if ← keywords? ["NULLS", "FIRST"] then pure " NULLS FIRST"
    else if ← keywords? ["NULLS", "LAST"] then pure " NULLS LAST"
    else pure ""
  let filled ←
    if inner.dialect == .ansi && (← atKeywords ["WITH", "FILL"]) then do
      expectKeywords ["WITH", "FILL"]
      let from? ← after? "FROM" (inner.expr 0)
      let to? ← after? "TO" (inner.expr 0)
      let step? ← after? "STEP" (inner.expr 0)
      pure (.text " WITH FILL" :: optionalExpr " FROM " from? ++ optionalExpr " TO " to? ++
        optionalExpr " STEP " step?)
    else pure []
  return .expr e :: .text (direction ++ nulls) :: filled

/-- Reads a row of expressions to order by, after the words `ORDER BY`. -/
def orderItems (inner : Level) : Parse (List Piece) :=
  listedPieces <$> commaSeparated (orderItem inner)

/-- Reads a row of expressions. -/
def exprs (inner : Level) : Parse (List Piece) :=
  listedExprs <$> commaSeparated (inner.expr 0)

/-! ## Windows -/

/-- Reads a bound of a window frame. -/
def frameBound (inner : Level) : Parse (List Piece) := do
  if ← keywords? ["CURRENT", "ROW"] then return [.text "CURRENT ROW"]
  let distance ←
    if ← keyword? "UNBOUNDED" then pure [.text "UNBOUNDED"]
    else
      match ← peekToken 0 with
      | some (.string .plain .single content) =>
          let value ←
            if needsUnit inner.dialect then inner.expr 0
            else do
              skip
              collated inner.dialect (.literal (.string .plain .single content))
          pure [.expr (← intervalOf inner.dialect value)]
      | _ => pure [.expr (← inner.expr 0)]
  match ← oneOf? ["PRECEDING", "FOLLOWING"] with
  | some word => return distance ++ [.text (" " ++ word)]
  | none => failHere "PRECEDING or FOLLOWING"

/-- Reads a window frame. -/
def windowFrame (inner : Level) : Parse (List Piece) := do
  let units ←
    match ← oneOf? ["ROWS", "RANGE", "GROUPS"] with
    | some units => pure units
    | none => failNext "ROWS, RANGE, GROUPS"
  if ← keyword? "BETWEEN" then
    let first ← frameBound inner
    expectKeyword "AND"
    let last ← frameBound inner
    return .text (units ++ " BETWEEN ") :: first ++ .text " AND " :: last
  else return .text (units ++ " ") :: (← frameBound inner)

/-- Reads a window as far as its closing parenthesis. -/
def windowSpec (inner : Level) : Parse (List Piece) := do
  let base ←
    match ← peekToken 0 with
    | some (.word w) =>
        if Keyword.isKnown w then pure []
        else do
          skip
          pure [[.text w.nameText]]
    | _ => pure []
  let partition ← afterAll? ["PARTITION", "BY"] (exprs inner)
  let order ← afterAll? ["ORDER", "BY"] (orderItems inner)
  let frame ←
    if ← symbol? .rightParen then pure none
    else do
      let frame ← windowFrame inner
      expectSymbol .rightParen
      pure (some frame)
  let parts : List (List Piece) := base ++ (optionalPieces "PARTITION BY " partition "" ::
    optionalPieces "ORDER BY " order "" :: frame.toList)
  let parts := parts.filter fun (part : List Piece) => !part.isEmpty
  return (parts.map fun part => part ++ [.text " "]).flatten.dropLast

/-! ## Arguments -/

/-- Reads the sign between the name of an argument and its value. -/
def argumentSign (d : Dialect) : Parse String := do
  if ← keyword? "VALUE" then return "VALUE"
  match ← peekToken 0, d with
  | some (.symbol .doubleArrow), _ => skip; return "=>"
  | some (.symbol .equal), .ansi => skip; return "="
  | some (.symbol .assign), .ansi => skip; return ":="
  | some (.symbol .colon), .postgres => skip; return ":"
  | _, _ => failHere "argument operator"

/-- Reads the name of an argument, which is any expression in one dialect. -/
def argumentName (inner : Level) : Parse Piece := do
  if inner.dialect == .postgres then return .expr (← inner.expr 0)
  else return .text (← name).nameText

/-- Reads an argument that has a name. -/
def namedArgument (inner : Level) : Parse (List Piece) := do
  let label ← argumentName inner
  let sign ← argumentSign inner.dialect
  let value ← starred inner
  return label :: .text (" " ++ sign ++ " ") :: value.pieces

/-- Reads an argument. -/
def argument (inner : Level) : Parse (List Piece) := do
  match ← maybe (namedArgument inner) with
  | some pieces => return pieces
  | none => return (← starred inner).pieces

/-- Reads what a function does with nulls, if it is said. -/
def nullTreatment? : Parse (Option String) := do
  match ← oneOf? ["RESPECT", "IGNORE"] with
  | some word =>
      expectKeyword "NULLS"
      return some (word ++ " NULLS")
  | none => return none

/-- Reads what a function of JSON does with nulls, if it is said. -/
def nullClause? : Parse (Option (List Piece)) := do
  if ← keywords? ["ABSENT", "ON", "NULL"] then return some [.text "ABSENT ON NULL"]
  else if ← keywords? ["NULL", "ON", "NULL"] then return some [.text "NULL ON NULL"]
  else return none

/-- Reads whether all values or only distinct ones are taken. -/
def duplicateTreatment : Parse String := do
  let position ← here
  if ← keyword? "ALL" then
    if ← keyword? "DISTINCT" then
      throw (.refused "Cannot specify both ALL and DISTINCT" position)
    else return "ALL "
  else if ← keyword? "DISTINCT" then return "DISTINCT "
  else return ""

/-- Reads what happens when a list of values grows too long, if it is said. -/
def onOverflow? (inner : Level) : Parse (Option (List Piece)) := do
  if ← keywords? ["ON", "OVERFLOW"] then
    if ← keyword? "ERROR" then return some [.text "ON OVERFLOW ERROR"]
    expectKeyword "TRUNCATE"
    let filler ←
      match ← peekToken 0 with
      | some (.word w) =>
          if w.keyword == "WITH" || w.keyword == "WITHOUT" then pure none
          else failHere "either filler, WITH, or WITHOUT in LISTAGG"
      | some (.string .plain .single _) | some (.string .escaped _ _) | some (.string .unicode _ _)
      | some (.string .national _ _) | some (.string .hex _ _) => pure (some (← inner.expr 0))
      | _ => failHere "either filler, WITH, or WITHOUT in LISTAGG"
    let counted ←
      match ← oneOf? ["WITH", "WITHOUT"] with
      | some word => pure (" " ++ word)
      | none => failHere "either WITH or WITHOUT in LISTAGG"
    expectKeyword "COUNT"
    return some (.text "ON OVERFLOW TRUNCATE" :: optionalExpr " " filler ++
      [.text (counted ++ " COUNT")])
  else return none

/-- The arguments of a call: the pieces in parentheses, and whether they say what is done with
nulls. -/
structure Arguments where
  pieces : List Piece
  treatsNulls : Bool

/-- Reads the clauses after the arguments of a call. -/
def argumentClauses (inner : Level) : Parse (List (List Piece) × Bool) := do
  let d := inner.dialect
  let nulls ← if d == .bigquery || d == .ansi then nullTreatment? else pure none
  let order ← afterAll? ["ORDER", "BY"] (orderItems inner)
  let limit ← after? "LIMIT" (inner.expr 0)
  let having ←
    if d == .bigquery || d == .ansi then
      after? "HAVING" do
        let kind ← expectOneOf ["MIN", "MAX"]
        return ([.text ("HAVING " ++ kind ++ " "), .expr (← inner.expr 0)] : List Piece)
    else pure none
  let separator ←
    if d == .mysql || d == .ansi then after? "SEPARATOR" constant else pure none
  let overflow ← onOverflow? inner
  let jsonNulls ← nullClause?
  let clauses : List (Option (List Piece)) :=
    [nulls.map fun s => [.text s], order.map (.text "ORDER BY " :: ·),
     limit.map fun e => [.text "LIMIT ", .expr e], having,
     separator.map fun l => [.text "SEPARATOR ", .expr (.literal l)], overflow, jsonNulls]
  return (clauses.filterMap id, nulls.isSome)

/-- Clauses with blanks between them. -/
def spacedPieces (clauses : List (List Piece)) : List Piece :=
  (clauses.map fun clause => .text " " :: clause).flatten.drop 1

/-- Reads the arguments of a call as far as the closing parenthesis. -/
def arguments (inner : Level) : Parse Arguments := do
  let first ← nullClause?
  if ← symbol? .rightParen then return ⟨first.getD [], false⟩
  let duplicates ← duplicateTreatment
  let args ← commaSeparated (argument inner)
  let (clauses, treatsNulls) ← argumentClauses inner
  expectSymbol .rightParen
  let clauses := first.toList ++ clauses
  let blank := if clauses.isEmpty then "" else " "
  return ⟨.text duplicates :: listedPieces args ++ .text blank :: spacedPieces clauses, treatsNulls⟩

/-! ## Calls -/

/-- Reads the condition on the rows that a call takes, if it is there. The words that open it are
taken even where no condition follows. -/
def filter? (inner : Level) : Parse (Option (List Piece)) := do
  let d := inner.dialect
  unless d == .postgres || d == .sqlite || d == .ansi do return none
  unless ← keyword? "FILTER" do return none
  unless ← symbol? .leftParen do return none
  unless ← keyword? "WHERE" do return none
  let condition ← inner.expr 0
  expectSymbol .rightParen
  return some [.expr condition]

/-- Reads the window that a call runs over, if it is there. -/
def over? (inner : Level) : Parse (Option (List Piece)) := do
  if ← keyword? "OVER" then
    if ← symbol? .leftParen then
      return some (.text " OVER (" :: (← windowSpec inner) ++ [.text ")"])
    else return some [.text (" OVER " ++ (← name).nameText)]
  else return none

/-- Reads a call after the name of its function. -/
def callPieces (inner : Level) (function : List Word) : Parse (List Piece) := do
  expectSymbol .leftParen
  let first ← arguments inner
  let (parameters, args) ←
    if inner.dialect == .ansi && (← atSymbol .leftParen) then do
      skip
      let args ← arguments inner
      pure (.text "(" :: first.pieces ++ [.text ")"], args)
    else pure ([], first)
  let within ←
    afterAll? ["WITHIN", "GROUP"] do
      expectSymbol .leftParen
      expectKeywords ["ORDER", "BY"]
      let order ← orderItems inner
      expectSymbol .rightParen
      return order
  let filtered ← filter? inner
  let nulls ← if args.treatsNulls then pure none else nullTreatment?
  let window ← over? inner
  return .text (dotted function) :: parameters ++ .text "(" :: args.pieces ++ .text ")" ::
    optionalPieces " WITHIN GROUP (ORDER BY " within ")" ++
    optionalPieces " FILTER (WHERE " filtered ")" ++
    (nulls.map fun s => Piece.text (" " ++ s)).toList ++ window.getD []

/-- Reads a call after the name of its function. -/
def call (inner : Level) (function : List Word) : Parse Expr :=
  Expr.form <$> callPieces inner function

end TypedSql.Grammar
