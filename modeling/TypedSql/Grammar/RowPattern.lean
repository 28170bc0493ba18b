import TypedSql.Grammar.Call

/-!
# Reading row patterns

Rows of a table that follow one another in a pattern: the pattern over symbols, the conditions that
define the symbols, and what comes out for each match.
-/

namespace TypedSql.Grammar

/-! ## Patterns -/

/-- Reads the rest of a bound on repetitions that has a lower bound and a comma; the lower bound is
at a place. -/
def upperBound (lower : String) (position : Option Position) : Parse String := do
  let found ← next
  match tokenOf found with
  | some (.number upper _) =>
      expectSymbol .rightBrace
      let least ← countOf 32 lower position
      let most ← countOf 32 upper position
      return s!"\x7b{least},{most}\x7d"
  | some (.symbol .rightBrace) => return s!"\x7b{← countOf 32 lower position},\x7d"
  | _ => unexpected "\x7d or upper bound" found

/-- Reads a bound on repetitions after its opening brace. -/
def repetitionBound : Parse String := do
  let found ← next
  match found with
  | some ⟨.symbol .comma, position⟩ =>
      let found ← next
      match tokenOf found with
      | some (.number upper _) =>
          expectSymbol .rightBrace
          return s!"\x7b,{← countOf 32 upper (some position)}\x7d"
      | _ => unexpected "literal number" found
  | some ⟨.number lower _, position⟩ =>
      if ← symbol? .comma then upperBound lower (some position)
      else
        expectSymbol .rightBrace
        return s!"\x7b{← countOf 32 lower (some position)}\x7d"
  | _ => unexpected "quantifier range" found

/-- Reads how often a part of a pattern repeats, if it is said. -/
def repetition? : Parse (Option String) := do
  match ← peekToken 0 with
  | some (.symbol .star) => skip; return some "*"
  | some (.symbol .plus) => skip; return some "+"
  | some (.placeholder "?") => skip; return some "?"
  | some (.symbol .leftBrace) =>
      skip
      some <$> repetitionBound
  | _ => return none

/-- Reads a part of a pattern without repetitions; `pattern` reads what stands in parentheses. -/
def patternPart (pattern : Parse String) : Parse String := do
  match ← peekToken 0 with
  | some (.symbol .caret) => skip; return "^"
  | some (.placeholder "$") => skip; return "$"
  | some (.symbol .leftBrace) =>
      skip
      expectSymbol .minus
      let left ← name
      expectSymbol .minus
      expectSymbol .rightBrace
      return "\x7b- " ++ left.nameText ++ " -\x7d"
  | some (.word ⟨"PERMUTE", none⟩) =>
      skip
      let symbols ← parens (commaSeparated name)
      return "PERMUTE(" ++ listed symbols ++ ")"
  | some (.symbol .leftParen) => return "( " ++ (← parens pattern) ++ " )"
  | _ => return (← name).nameText

/-- Reads parts of a pattern that follow one another. -/
def patternRow (pattern : Parse String) : Parse String := do
  let part : Parse String := do
    let first ← patternPart pattern
    return first ++ String.join (← many repetition?)
  let ended : Parse Bool := return (← atSymbol .rightParen) || (← atSymbol .pipe)
  return " ".intercalate (← rowWhile part (not <$> ended))

/-- Reads a pattern: rows of parts to choose from. The number bounds how deep parentheses nest. -/
def rowPattern : Nat → Parse String
  | 0 => throw .tooDeep
  | fuel + 1 => do
      return " | ".intercalate (← rowWhile (patternRow (rowPattern fuel)) (symbol? .pipe))

/-! ## Matches -/

/-- Reads a value that comes out of a match, with its name. -/
def measure (inner : Level) : Parse (List Piece) := do
  let e ← inner.expr 0
  discard <| keyword? "AS"
  return [.expr e, .text (" AS " ++ (← name).nameText)]

/-- Reads how many rows come out of a match, if it is said. -/
def rowsPerMatch : Parse String := do
  if ← keywords? ["ONE", "ROW", "PER", "MATCH"] then return "ONE ROW PER MATCH "
  else if ← keywords? ["ALL", "ROWS", "PER", "MATCH"] then
    if ← keywords? ["SHOW", "EMPTY", "MATCHES"] then
      return "ALL ROWS PER MATCH SHOW EMPTY MATCHES "
    else if ← keywords? ["OMIT", "EMPTY", "MATCHES"] then
      return "ALL ROWS PER MATCH OMIT EMPTY MATCHES "
    else if ← keywords? ["WITH", "UNMATCHED", "ROWS"] then
      return "ALL ROWS PER MATCH WITH UNMATCHED ROWS "
    else return "ALL ROWS PER MATCH "
  else return ""

/-- Reads where the search goes on after a match, if it is said. -/
def afterMatch : Parse String := do
  unless ← keywords? ["AFTER", "MATCH", "SKIP"] do return ""
  if ← keywords? ["PAST", "LAST", "ROW"] then return "AFTER MATCH SKIP PAST LAST ROW "
  else if ← keywords? ["TO", "NEXT", "ROW"] then return "AFTER MATCH SKIP  TO NEXT ROW "
  else if ← keywords? ["TO", "FIRST"] then
    return "AFTER MATCH SKIP TO FIRST " ++ (← name).nameText ++ " "
  else if ← keywords? ["TO", "LAST"] then
    return "AFTER MATCH SKIP TO LAST " ++ (← name).nameText ++ " "
  else failNext "after match skip option"

/-- Reads the condition that defines a symbol of a pattern. -/
def patternSymbol (inner : Level) : Parse (List Piece) := do
  let symbol ← name
  expectKeyword "AS"
  return [.text (symbol.nameText ++ " AS "), .expr (← inner.expr 0)]

/-- Reads what is matched in the rows of a table, after the word `MATCH_RECOGNIZE`. -/
def rowMatches (inner : Level) : Parse (List Piece) := do
  expectSymbol .leftParen
  let partition ← afterAll? ["PARTITION", "BY"] (exprs inner)
  let order ← afterAll? ["ORDER", "BY"] (orderItems inner)
  let measures ← after? "MEASURES" (listedPieces <$> commaSeparated (measure inner))
  let rows ← rowsPerMatch
  let following ← afterMatch
  expectKeyword "PATTERN"
  let pattern ← parens (rowPattern ((← remaining) + 1))
  expectKeyword "DEFINE"
  let symbols ← commaSeparated (patternSymbol inner)
  expectSymbol .rightParen
  return .text " MATCH_RECOGNIZE(" :: optionalPieces "PARTITION BY " partition " " ++
    optionalPieces "ORDER BY " order " " ++ optionalPieces "MEASURES " measures " " ++
    .text (rows ++ following ++ "PATTERN (" ++ pattern ++ ") DEFINE ") :: listedPieces symbols ++
    [.text ")"]

end TypedSql.Grammar
