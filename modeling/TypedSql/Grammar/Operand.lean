import TypedSql.Grammar.Call
import TypedSql.Grammar.Strength

/-!
# Reading operands

The parts of an expression that operators join: constants, names, calls, the forms that start with a
keyword of their own, and whatever stands in parentheses or brackets.
-/

namespace TypedSql.Grammar

/-! ## Forms in parentheses after a keyword -/

/-- Reads the cases of a `CASE` after its `WHEN`, with those read before. -/
def cases (inner : Level) : Nat → List Piece → Parse (List Piece)
  | 0, done => return done
  | fuel + 1, done => do
      let condition ← inner.expr 0
      expectKeyword "THEN"
      let result ← inner.expr 0
      let done := done ++ [.text " WHEN ", .expr condition, .text " THEN ", .expr result]
      if ← keyword? "WHEN" then cases inner fuel done
      else return done

/-- Reads a choice between cases. -/
def caseForm (inner : Level) : Parse Expr := do
  let operand ←
    if ← keyword? "WHEN" then pure none
    else do
      let e ← inner.expr 0
      expectKeyword "WHEN"
      pure (some e)
  let rows ← cases inner ((← remaining) + 1) []
  let otherwise ← after? "ELSE" (inner.expr 0)
  expectKeyword "END"
  return .form (.text "CASE" :: optionalExpr " " operand ++ rows ++
    optionalExpr " ELSE " otherwise ++ [.text " END"])

/-- Reads a conversion to a type or a character set. -/
def convertForm (inner : Level) (opening : String) : Parse Expr := do
  let d := inner.dialect
  expectSymbol .leftParen
  let e ← inner.expr 0
  if ← keyword? "USING" then
    let charset ← objectNameIn d
    expectSymbol .rightParen
    return .form [.text opening, .expr e, .text (" USING " ++ dotted charset ++ ")")]
  expectSymbol .comma
  let type ← typeName d
  let charset ← afterAll? ["CHARACTER", "SET"] (objectNameIn d)
  expectSymbol .rightParen
  let charset := match charset with
    | some names => " CHARACTER SET " ++ dotted names
    | none => ""
  return .form [.text opening, .expr e, .text (", " ++ type.text ++ charset ++ ")")]

/-- Reads a cast to a type. -/
def castForm (inner : Level) (opening : String) : Parse Expr := do
  expectSymbol .leftParen
  let e ← inner.expr 0
  expectKeyword "AS"
  let type ← typeName inner.dialect
  let format ←
    after? "FORMAT" do
      let value ← constant
      let zone ← afterAll? ["AT", "TIME", "ZONE"] constant
      return ([.expr (.literal value)] ++ optionalExpr " AT TIME ZONE " (zone.map .literal) :
        List Piece)
  expectSymbol .rightParen
  return .form ([.text opening, .expr e, .text (" AS " ++ type.text)] ++
    optionalPieces " FORMAT " format "" ++ [.text ")"])

/-- Reads a test whether a query has rows. -/
def existsForm (inner : Level) (opening : String) : Parse Expr := do
  let q ← parens inner.query
  return .form [.text opening, .query q, .text ")"]

/-- Reads the field of a date. -/
def extractForm (inner : Level) : Parse Expr := do
  let d := inner.dialect
  expectSymbol .leftParen
  let field ← dateField d
  let sign ←
    if ← keyword? "FROM" then pure " FROM "
    else if d == .ansi && (← atSymbol .comma) then do
      skip
      pure ", "
    else throw (.refused "Expected 'FROM' or ','" none)
  let e ← inner.expr 0
  expectSymbol .rightParen
  return .form [.text ("EXTRACT(" ++ field ++ sign), .expr e, .text ")"]

/-- Reads a rounding to whole numbers, to a field of a date, or to a scale. -/
def roundForm (inner : Level) (opening : String) : Parse Expr := do
  expectSymbol .leftParen
  let e ← inner.expr 0
  let rest ←
    if ← keyword? "TO" then do
      pure (" TO " ++ (← dateField inner.dialect))
    else if ← symbol? .comma then do
      match ← constant with
      | .number digits long => pure (", " ++ (Literal.number digits long).text)
      | _ => throw (.refused "Scale field can only be of number type" none)
    else pure ""
  expectSymbol .rightParen
  return .form [.text opening, .expr e, .text (rest ++ ")")]

/-- Reads the place of one text in another. -/
def positionForm (inner : Level) : Parse Expr := do
  expectSymbol .leftParen
  let e ← inner.expr (strengths inner.dialect).between
  expectKeyword "IN"
  let whole ← inner.expr 0
  expectSymbol .rightParen
  return .form [.text "POSITION(", .expr e, .text " IN ", .expr whole, .text ")"]

/-- Reads a part of a text, told by words or by commas. -/
def substringForm (inner : Level) : Parse Expr := do
  expectSymbol .leftParen
  let e ← inner.expr 0
  let commas ← symbol? .comma
  let start ←
    if commas then some <$> inner.expr 0 else after? "FROM" (inner.expr 0)
  let length ←
    if ← keyword? "FOR" then some <$> inner.expr 0
    else if ← symbol? .comma then some <$> inner.expr 0
    else pure none
  expectSymbol .rightParen
  return .form ([.text "SUBSTRING(", .expr e] ++
    optionalExpr (if commas then ", " else " FROM ") start ++
    optionalExpr (if commas then ", " else " FOR ") length ++ [.text ")"])

/-- Reads a text with a part replaced. -/
def overlayForm (inner : Level) : Parse Expr := do
  expectSymbol .leftParen
  let e ← inner.expr 0
  expectKeyword "PLACING"
  let part ← inner.expr 0
  expectKeyword "FROM"
  let start ← inner.expr 0
  let length ← after? "FOR" (inner.expr 0)
  expectSymbol .rightParen
  return .form ([.text "OVERLAY(", .expr e, .text " PLACING ", .expr part, .text " FROM ",
    .expr start] ++ optionalExpr " FOR " length ++ [.text ")"])

/-- Reads a text with its ends cut off. A comma after the text is taken even where the dialect lets
nothing follow it. -/
def trimForm (inner : Level) : Parse Expr := do
  let d := inner.dialect
  expectSymbol .leftParen
  let side ←
    match ← oneOf? ["BOTH", "LEADING", "TRAILING"] with
    | some word => pure (word ++ " ")
    | none => pure ""
  let e ← inner.expr 0
  if ← keyword? "FROM" then
    let whole ← inner.expr 0
    expectSymbol .rightParen
    return .form [.text ("TRIM(" ++ side), .expr e, .text " FROM ", .expr whole, .text ")"]
  else if (← symbol? .comma) && (d == .bigquery || d == .ansi) then
    let characters ← exprs inner
    expectSymbol .rightParen
    return .form ([.text "TRIM(", .expr e, .text ", "] ++ characters ++ [.text ")"])
  else
    expectSymbol .rightParen
    return .form [.text ("TRIM(" ++ side), .expr e, .text ")"]

/-- Reads a full text search. -/
def matchForm : Parse Expr := do
  let columns ← nameGroup
  expectKeyword "AGAINST"
  expectSymbol .leftParen
  let value ← constant
  let mode ←
    if ← keywords? ["IN", "NATURAL", "LANGUAGE", "MODE"] then
      if ← keywords? ["WITH", "QUERY", "EXPANSION"] then
        pure " IN NATURAL LANGUAGE MODE WITH QUERY EXPANSION"
      else pure " IN NATURAL LANGUAGE MODE"
    else if ← keywords? ["IN", "BOOLEAN", "MODE"] then pure " IN BOOLEAN MODE"
    else if ← keywords? ["WITH", "QUERY", "EXPANSION"] then pure " WITH QUERY EXPANSION"
    else pure ""
  expectSymbol .rightParen
  return .form [.text ("MATCH (" ++ ", ".intercalate (columns.map Word.nameText) ++ ") AGAINST ("),
    .expr (.literal value), .text (mode ++ ")")]

/-- Reads a value of a row, which may have a name where the row has no type. -/
def rowValue (inner : Level) (typed : Bool) : Parse (List Piece) := do
  let e ← inner.expr 0
  let position ← here
  if ← keyword? "AS" then
    if typed then throw (.refused "Typed syntax does not allow AS" position)
    else return [.expr e, .text (" AS " ++ (← name).nameText)]
  else return [.expr e]

/-- Reads a row of values after the word `STRUCT`, which is at a place. -/
def rowForm (inner : Level) (position : Option Position) : Parse Expr := do
  let (fields, halfOpen) ← rowFields (typeAndHalf inner.dialect ((← remaining) + 1)) position
  if halfOpen then refuseHere "unmatched > in STRUCT literal"
  let values ← parens (commaSeparated (rowValue inner !fields.isEmpty))
  return .form (.text (rowText fields ++ "(") :: listedPieces values ++ [.text ")"])

/-- Reads the elements of an array as far as the closing bracket. -/
def arrayForm (inner : Level) (opening : String) : Parse Expr := do
  let elements ← commaSeparatedOrNone (inner.expr 0) .rightBracket
  expectSymbol .rightBracket
  return .form (.text opening :: listedExprs elements ++ [.text "]"])

/-- Reads an entry of a map. -/
def mapEntry {α : Type} (inner : Level) (key : Parse α) (text : α → Piece) :
    Parse (List Piece) := do
  let k ← key
  expectSymbol .colon
  return [text k, .text ": ", .expr (← inner.expr 0)]

/-- Reads the entries of a map in braces. -/
def mapForm (opening : String) (entries : Parse (List (List Piece))) : Parse Expr := do
  expectSymbol .leftBrace
  let entries ← entries
  expectSymbol .rightBrace
  return .form (.text opening :: listedPieces entries ++ [.text "\x7d"])

/-! ## Words -/

/-- Reads a negation. -/
def notForm (inner : Level) : Parse Expr := do
  if ← keyword? "EXISTS" then existsForm inner "NOT EXISTS ("
  else return .unary "NOT " (← inner.expr (strengths inner.dialect).not)

/-- Reads an interval after its keyword. -/
def intervalForm (inner : Level) (operand : Parse Expr) : Parse Expr := do
  let value ← if needsUnit inner.dialect then inner.expr 0 else operand
  intervalOf inner.dialect value

/-- Reads what a word at a place means as a keyword that starts an expression; `none` where it has
no such meaning. -/
def keywordOperand (inner : Level) (operand : Parse Expr) (w : Word) (position : Option Position) :
    Parse (Option Expr) := do
  let d := inner.dialect
  match w.keyword with
  | "TRUE" => return some (.literal (.boolean true))
  | "FALSE" => return some (.literal (.boolean false))
  | "NULL" => return some (.literal .null)
  | "CURRENT_CATALOG" | "CURRENT_USER" | "SESSION_USER" | "USER" =>
      if d == .postgres || d == .ansi then return some (.form [.text w.nameText])
      else return none
  | "CURRENT_TIMESTAMP" | "CURRENT_TIME" | "CURRENT_DATE" | "LOCALTIME" | "LOCALTIMESTAMP" =>
      if ← symbol? .leftParen then
        let args ← arguments inner
        return some (.form (.text (w.nameText ++ "(") :: args.pieces ++ [.text ")"]))
      else return some (.form [.text w.nameText])
  | "CASE" => some <$> caseForm inner
  | "CONVERT" => some <$> convertForm inner "CONVERT("
  | "TRY_CONVERT" =>
      if d == .ansi then some <$> convertForm inner "TRY_CONVERT(" else return none
  | "CAST" => some <$> castForm inner "CAST("
  | "TRY_CAST" => some <$> castForm inner "TRY_CAST("
  | "SAFE_CAST" => some <$> castForm inner "SAFE_CAST("
  | "EXISTS" => some <$> existsForm inner "EXISTS ("
  | "EXTRACT" => some <$> extractForm inner
  | "CEIL" => some <$> roundForm inner "CEIL("
  | "FLOOR" => some <$> roundForm inner "FLOOR("
  | "POSITION" =>
      if ← atSymbol .leftParen then
        match ← maybe (positionForm inner) with
        | some e => return some e
        | none => some <$> call inner [w]
      else return none
  | "SUBSTRING" => some <$> substringForm inner
  | "OVERLAY" => some <$> overlayForm inner
  | "TRIM" => some <$> trimForm inner
  | "INTERVAL" => some <$> intervalForm inner operand
  | "ARRAY" =>
      if ← symbol? .leftBracket then some <$> arrayForm inner "ARRAY["
      else if ← atSymbol .leftParen then
        let q ← parens inner.query
        return some (.form [.text (w.nameText ++ "("), .query q, .text ")"])
      else return none
  | "NOT" => some <$> notForm inner
  | "MATCH" => if d == .mysql || d == .ansi then some <$> matchForm else return none
  | "STRUCT" =>
      if d == .bigquery || d == .ansi then some <$> rowForm inner position else return none
  | "MAP" =>
      if d == .ansi && (← atSymbol .leftBrace) then
        some <$> mapForm "MAP \x7b"
          (commaSeparatedOrNone (mapEntry inner (inner.expr 0) .expr) .rightBrace)
      else return none
  | "PRIOR" =>
      if inner.prior then
        return some (.unary "PRIOR " (← inner.expr (strengths d).plus))
      else return none
  | _ => return none

/-- Reads a dotted name, with the arguments of a call if they follow. A star may end the name in one
dialect. -/
def dottedOperand (inner : Level) : Nat → List Word → Parse Expr
  | 0, done => return .path done.reverse
  | fuel + 1, done => do
      if ← symbol? .dot then
        let found ← next
        match tokenOf found with
        | some (.word w) => dottedOperand inner fuel (w :: done)
        | some (.string .plain .single content) =>
            dottedOperand inner fuel (⟨content, some '\x27'⟩ :: done)
        | some (.symbol .star) =>
            if inner.dialect == .postgres then
              return .form [.text (dotted done.reverse ++ ".*")]
            else unexpected "an identifier after '.'" found
        | _ => unexpected "an identifier or a '*' after '.'" found
      else if ← atSymbol .leftParen then call inner done.reverse
      else return .path done.reverse

/-- Reads what a word means that is no keyword here: a name, a call, or the character set of a
string. -/
def nameOperand (inner : Level) (w : Word) : Parse Expr := do
  match ← peekToken 0 with
  | some (.symbol .leftParen) => call inner [w]
  | some (.symbol .dot) => dottedOperand inner ((← remaining) + 1) [w]
  | some (.string mark quote content) =>
      let introduced := match mark, quote with
        | .plain, .single | .plain, .double | .hex, _ => w.value.startsWith "_"
        | _, _ => false
      if introduced then
        skip
        return .form [.text (w.value ++ " "), .expr (.literal (.string mark quote content))]
      else return .name w
  | _ => return .name w

/-- Reads what a word at a place starts. Where its meaning as a keyword fails, it is read as a
name. -/
def wordOperand (inner : Level) (operand : Parse Expr) (w : Word) (position : Option Position) :
    Parse Expr := do
  let meaning ←
    try Except.ok <$> restored (keywordOperand inner operand w position)
    catch failure => pure (Except.error failure)
  match meaning with
  | .ok (some e) => collated inner.dialect e
  | .ok none => nameOperand inner w >>= collated inner.dialect
  | .error failure =>
      if Keyword.reservedForName w (inner.dialect == .postgres) then throw failure
      else
        match ← attempt (restored (nameOperand inner w)) with
        | some e => return e
        | none => throw failure

/-! ## Operands -/

/-- Reads a constant that has its type before it. -/
def typedConstant (inner : Level) (operand : Parse Expr) : Parse Expr := do
  let d := inner.dialect
  match ← typeName d with
  | .interval => intervalForm inner operand
  | .custom _ => failHere "a type with a meaning of its own"
  | .known type =>
      let content ← stringLiteral d
      return .form [.text (type ++ " "), .expr (.literal (.string .plain .single content))]

/-- Whether a query is next. -/
def atQuery : Parse Bool := do
  match ← peekKeyword with
  | "SELECT" | "WITH" => return true
  | _ => return false

/-- Reads what stands after an opening parenthesis: a query, an expression, or several. -/
def parenthesized (inner : Level) : Parse Expr := do
  if ← atQuery then
    let q ← inner.query
    expectSymbol .rightParen
    return .subquery q
  else
    let es ← commaSeparated (inner.expr 0)
    expectSymbol .rightParen
    match es with
    | [e] => return .nested e
    | es => return .form (.text "(" :: listedExprs es ++ [.text ")"])

/-- Reads the name of a field after an operand in parentheses, if it is there. -/
def fieldOf (e : Expr) : Parse Expr := do
  if ← symbol? .dot then
    let found ← next
    match found with
    | some ⟨.word w, _⟩ => return .form [.expr e, .text ("." ++ w.nameText)]
    | some lexeme =>
        throw (.refused ("Expected identifier, found: " ++ lexeme.token.text) lexeme.position)
    | none => throw (.refused "Expected identifier, found: EOF" none)
  else return e

/-- Reads what stands in braces: a call in the form of drivers, or a map. -/
def braced (inner : Level) : Parse Expr := do
  let driverCall ← maybe do
    expectSymbol .leftBrace
    expectKeyword "FN"
    let function ← objectNameIn inner.dialect
    callPieces inner function
  match driverCall with
  | some pieces =>
      expectSymbol .rightBrace
      return .form (.text "\x7bfn " :: pieces ++ [.text "\x7d"])
  | none =>
      if inner.dialect == .ansi then
        mapForm "\x7b" (commaSeparated (mapEntry inner name fun w => .text w.nameText))
      else failNext "an expression"

/-- The operator before an operand that some symbol is, and how tight it binds. -/
def leadingOperator (d : Dialect) (s : Symbol) : Option (String × Nat) :=
  match s, d with
  | .minus, _ | .plus, _ => some (s.text, (strengths d).times)
  | .doubleBang, .postgres | .pipeSlash, .postgres | .doublePipeSlash, .postgres
  | .atSign, .postgres | .tilde, .postgres => some (s.text, (strengths d).plus)
  | _, _ => none

/-- Reads an operand that starts with a symbol. -/
def symbolOperand (inner : Level) (s : Symbol) : Parse Expr := do
  let d := inner.dialect
  match leadingOperator d s with
  | some (op, strength) =>
      skip
      return .unary op (← inner.expr strength)
  | none =>
      match s with
      | .leftBracket =>
          skip
          arrayForm inner "["
      | .leftParen =>
          skip
          fieldOf (← parenthesized inner)
      | .leftBrace => braced inner
      | .colon | .atSign => Expr.literal <$> constant
      | _ => failNext "an expression"

/-- Reads an operand without a type before it. -/
def plainOperand (inner : Level) (operand : Parse Expr) : Parse Expr := do
  let d := inner.dialect
  let found ← peek
  match tokenOf found with
  | some (.word w) =>
      skip
      wordOperand inner operand w (found.map (·.position))
  | some (.symbol s) => symbolOperand inner s >>= collated d
  | some (.string .escaped _ _) =>
      if d == .postgres || d == .ansi then
        (Expr.literal <$> constant) >>= collated d
      else failNext "an expression"
  | some (.string _ _ _) | some (.number _ _) | some (.dollarString _ _) | some (.placeholder _) =>
      (Expr.literal <$> constant) >>= collated d
  | _ => failNext "an expression"

/-- Reads an operand. The number bounds how many intervals follow one another. -/
def operand (inner : Level) : Nat → Parse Expr
  | 0 => throw .tooDeep
  | fuel + 1 => do
      match ← maybe (typedConstant inner (operand inner fuel)) with
      | some e => return e
      | none => plainOperand inner (operand inner fuel)

end TypedSql.Grammar
