import TypedSql.Grammar.Operand

/-!
# Reading operators

What goes on with an expression that has been read: operators between two operands, tests, casts and
subscripts. `expression` joins operands by them, as tight as the operators bind.
-/

namespace TypedSql.Grammar

/-- The text of an operator between two operands that some symbol is, where the dialect has it. -/
def symbolOperator (d : Dialect) (s : Symbol) : Option String :=
  match s with
  | .equal | .doubleEqual => some "="
  | .spaceship | .notEqual | .greater | .greaterEqual | .less | .lessEqual | .plus | .minus | .star
  | .percent | .doublePipe | .pipe | .caret | .ampersand | .slash | .tilde | .tildeStar
  | .bangTilde | .bangTildeStar | .doubleTilde | .doubleTildeStar | .bangDoubleTilde
  | .bangDoubleTildeStar | .arrow | .longArrow | .hashArrow | .hashLongArrow | .atArrow | .arrowAt
  | .hashMinus | .atQuestion | .doubleAt | .question | .questionAnd | .questionPipe => some s.text
  | .doubleSlash => if d == .ansi then some s.text else none
  | .shiftLeft | .shiftRight | .doubleAmpersand | .caretAt =>
      if d == .postgres || d == .ansi then some s.text else none
  | .hash => if d == .postgres then some s.text else none
  | _ => none

/-- Reads the name of an operator with dots between its parts. -/
def operatorName : Parse (List String) :=
  rowWhile (return match ← next with | some lexeme => lexeme.token.text | none => "EOF")
    (symbol? .dot)

/-- Takes the next token if it is an operator between two operands, and gives its text. -/
def binaryOperator? (d : Dialect) : Parse (Option String) := do
  match ← peekToken 0 with
  | some (.symbol s) =>
      match symbolOperator d s with
      | some text => skip; return some text
      | none => return none
  | some (.operator text) => skip; return some text
  | some (.word w) =>
      match w.keyword with
      | "AND" | "OR" | "XOR" => skip; return some w.keyword
      | "OPERATOR" =>
          if d == .postgres || d == .ansi then
            skip
            let parts ← parens operatorName
            return some ("OPERATOR(" ++ ".".intercalate parts ++ ")")
          else return none
      | _ => return none
  | _ => return none

/-- The operators that compare with any or all values of a list. -/
def comparesLists : List String := [">", "<", ">=", "<=", "=", "<>"]

/-- Reads the right side of an operator. -/
def rightSide (inner : Level) (left : Expr) (op : String) (position : Option Position)
    (strength : Nat) : Parse Expr := do
  match ← oneOf? ["ANY", "ALL", "SOME"] with
  | none => return .binary left op (← inner.expr strength)
  | some word =>
      let subqueryNext ← do
        if ← atSymbol .leftParen then
          match keywordOf (← peekToken 1) with
          | "SELECT" | "WITH" => pure true
          | _ => pure false
        else pure false
      let right ←
        if subqueryNext then inner.expr strength
        else parens (inner.expr strength)
      unless comparesLists.contains op do
        throw (.refused
          s!"Expected one of [=, >, <, =>, =<, !=] as comparison operator, found: {op}" position)
      let opening := " " ++ op ++ " " ++ word
      match right with
      | .subquery q => return .form [.expr left, .text opening, .expr (.subquery q)]
      | right => return .form [.expr left, .text (opening ++ "("), .expr right, .text ")"]

/-- Reads a test after the word `IS`. -/
def isForm (inner : Level) (e : Expr) : Parse Expr := do
  let test (text : String) : Expr := .form [.expr e, .text (" IS " ++ text)]
  if ← keyword? "NULL" then return test "NULL"
  if ← keywords? ["NOT", "NULL"] then return test "NOT NULL"
  if ← keyword? "TRUE" then return test "TRUE"
  if ← keywords? ["NOT", "TRUE"] then return test "NOT TRUE"
  if ← keyword? "FALSE" then return test "FALSE"
  if ← keywords? ["NOT", "FALSE"] then return test "NOT FALSE"
  if ← keyword? "UNKNOWN" then return test "UNKNOWN"
  if ← keywords? ["NOT", "UNKNOWN"] then return test "NOT UNKNOWN"
  if ← keywords? ["DISTINCT", "FROM"] then
    return .form [.expr e, .text " IS DISTINCT FROM ", .expr (← inner.expr 0)]
  if ← keywords? ["NOT", "DISTINCT", "FROM"] then
    return .form [.expr e, .text " IS NOT DISTINCT FROM ", .expr (← inner.expr 0)]
  failHere "[NOT] NULL or TRUE|FALSE or [NOT] DISTINCT FROM after IS"

/-- Reads a test whether a value is in a list, a query or an array. -/
def inForm (inner : Level) (e : Expr) (negation : String) : Parse Expr := do
  if ← keyword? "UNNEST" then
    let array ← parens (inner.expr 0)
    return .form [.expr e, .text (negation ++ "IN UNNEST("), .expr array, .text ")"]
  expectSymbol .leftParen
  if ← atQuery then
    let q ← inner.query
    expectSymbol .rightParen
    return .form [.expr e, .text (negation ++ "IN ("), .query q, .text ")"]
  let values ←
    if inner.dialect == .sqlite then commaSeparatedOrNone (inner.expr 0) .rightParen
    else commaSeparated (inner.expr 0)
  expectSymbol .rightParen
  return .form (.expr e :: .text (negation ++ "IN (") :: listedExprs values ++ [.text ")"])

/-- Reads a test whether a text is like a pattern, after the words of the test. -/
def likeForm (inner : Level) (e : Expr) (words : String) : Parse Expr := do
  let pattern ← inner.expr (strengths inner.dialect).like
  let escape ← after? "ESCAPE" (stringLiteral inner.dialect)
  let escape := match escape with
    | some text => " ESCAPE '" ++ text ++ "'"
    | none => ""
  return .form [.expr e, .text (words ++ " "), .expr pattern, .text escape]

/-- Reads a test that may be negated. -/
def testForm (inner : Level) (e : Expr) : Parse Expr := do
  let s := strengths inner.dialect
  let negation := if ← keyword? "NOT" then " NOT " else " "
  let byRegexp ← keyword? "REGEXP"
  let byRlike ← keyword? "RLIKE"
  if byRegexp || byRlike then
    let word := if byRegexp then "REGEXP " else "RLIKE "
    return .form [.expr e, .text (negation ++ word), .expr (← inner.expr s.like)]
  if ← keyword? "IN" then inForm inner e negation
  else if ← keyword? "BETWEEN" then
    let low ← inner.expr s.between
    expectKeyword "AND"
    let high ← inner.expr s.between
    return .form [.expr e, .text (negation ++ "BETWEEN "), .expr low, .text " AND ", .expr high]
  else if ← keyword? "LIKE" then
    let any := if ← keyword? "ANY" then " ANY" else ""
    likeForm inner e (negation ++ "LIKE" ++ any)
  else if ← keyword? "ILIKE" then
    let any := if ← keyword? "ANY" then " ANY" else ""
    likeForm inner e (negation ++ "ILIKE" ++ any)
  else if ← keywords? ["SIMILAR", "TO"] then likeForm inner e (negation ++ "SIMILAR TO")
  else failHere "IN or BETWEEN after NOT"

/-- Reads the bounds of a slice after its lower bound and a colon. -/
def sliceRest (inner : Level) (lower : List Piece) : Parse (List Piece) := do
  if ← symbol? .rightBracket then return lower ++ [.text ":"]
  let upper ← inner.expr 0
  let bounds := lower ++ [.text ":", .expr upper]
  if ← symbol? .rightBracket then return bounds
  expectSymbol .colon
  if ← symbol? .rightBracket then return bounds
  let stride ← inner.expr 0
  expectSymbol .rightBracket
  return bounds ++ [.text ":", .expr stride]

/-- Reads an index or a slice as far as the closing bracket. -/
def subscript (inner : Level) (e : Expr) : Parse Expr := do
  let inside ←
    if ← symbol? .colon then sliceRest inner []
    else do
      let lower ← inner.expr 0
      if ← symbol? .rightBracket then pure [.expr lower]
      else do
        expectSymbol .colon
        sliceRest inner [.expr lower]
  return .form (.expr e :: .text "[" :: inside ++ [.text "]"])

/-- Reads a key after those read before, if there is one. -/
def key? (inner : Level) : Parse (Option (List Piece)) := do
  if ← symbol? .leftBracket then
    let key ← inner.expr 0
    expectSymbol .rightBracket
    return some [.text "[", .expr key, .text "]"]
  else if inner.dialect == .bigquery && (← atSymbol .dot) then
    skip
    return some [.text ".", .expr (← inner.expr 0)]
  else return none

/-- Reads keys in brackets. -/
def keys (inner : Level) (e : Expr) : Parse Expr := do
  return .form (.expr e :: (← many (key? inner)).flatten)

/-- The name of a symbol that binds tight as an operator but is none in the dialect. -/
def strayName (s : Symbol) : String :=
  match s with
  | .hash => "Sharp"
  | .shiftLeft => "ShiftLeft"
  | .shiftRight => "ShiftRight"
  | .doubleAmpersand => "Overlap"
  | .caretAt => "CaretAt"
  | .bang => "ExclamationMark"
  | s => s.text

/-- How a token that goes on with no expression is told in messages. -/
def strayText (found : Option Lexeme) : String :=
  match tokenOf found with
  | some (.word w) =>
      s!"Word(Word \x7b value: \"{w.value}\", quote_style: None, keyword: {w.keyword} \x7d)"
  | some (.symbol s) => strayName s
  | some token => token.text
  | none => "EOF"

/-- Takes a token that binds as an operator but goes on with no expression, and refuses it. -/
def stray {α : Type} (found : Option Lexeme) : Parse α := do
  skip
  throw (.refused ("No infix parser for token " ++ strayText found) (found.map (·.position)))

/-- Reads what goes on with an expression: the next token as an operator of some strength. -/
def continuation (inner : Level) (e : Expr) (strength : Nat) : Parse Expr := do
  let d := inner.dialect
  if d == .mysql && (← atKeywords ["DIV"]) then
    skip
    return .binary e "DIV" (← inner.expr 0)
  let found ← peek
  match ← binaryOperator? d with
  | some op => rightSide inner e op (found.map (·.position)) strength
  | none =>
      match tokenOf found with
      | some (.word w) =>
          match w.keyword with
          | "IS" =>
              skip
              isForm inner e
          | "AT" =>
              skip
              expectKeywords ["TIME", "ZONE"]
              return .binary e "AT TIME ZONE" (← inner.expr strength)
          | "NOT" | "IN" | "BETWEEN" | "LIKE" | "ILIKE" | "SIMILAR" | "REGEXP" | "RLIKE" =>
              testForm inner e
          | _ => stray found
      | some (.symbol .doubleColon) =>
          skip
          let type ← typeName d
          return .form [.expr e, .text ("::" ++ type.text)]
      | some (.symbol .leftBracket) =>
          if d == .postgres || d == .ansi then
            skip
            subscript inner e
          else keys inner e
      | some (.symbol .bang) =>
          if d == .postgres then
            skip
            return .form [.expr e, .text "!"]
          else stray found
      | _ => stray found

/-- Goes on with an expression while operators bind tighter than a strength. -/
def continued (inner : Level) (least : Nat) : Nat → Expr → Parse Expr
  | 0, e => return e
  | fuel + 1, e => do
      let strength ← nextStrength inner.dialect
      if strength ≤ least then return e
      else continued inner least fuel (← continuation inner e strength)

/-- Reads an expression whose operators bind tighter than a strength. -/
def expression (inner : Level) (least : Nat) : Parse Expr := do
  let n ← remaining
  continued inner least (n + 1) (← operand inner (n + 1))

end TypedSql.Grammar
