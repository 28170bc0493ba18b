import TypedSql.Statement
import TypedSql.Token.Lexer

/-!
# Reading grammar

A `Parse α` reads a value from the front of a row of lexemes and leaves the rest of the row. Gaps
between tokens are passed over, save where a rule asks whether tokens touch. A reading that fails
gives a `SyntaxError` and stays at the lexemes that it has come to; alternatives start again at the
lexemes they began with.
-/

namespace TypedSql.Grammar

/-- Why a text is no SQL: it has no tokens, some token is not the one that has to follow, a rule
refuses what it has read, or parts are nested too deep. -/
inductive SyntaxError
  | lexical (e : Lexer.LexError)
  | unexpected (expected : String) (found : Option Lexeme)
  | refused (reason : String) (position : Option Position)
  | tooDeep
  deriving Repr, Inhabited

/-- A place at the end of a message; the end of the text has none. -/
def placeText (position : Option Position) : String :=
  match position with
  | some position => position.text
  | none => ""

/-- A token that was found, with its place. -/
def foundText (found : Option Lexeme) : String :=
  match found with
  | some lexeme => lexeme.token.text ++ lexeme.position.text
  | none => "EOF"

/-- The sentence for a failure. -/
def SyntaxError.message : SyntaxError → String
  | lexical e => "sql parser error: " ++ e.message
  | unexpected expected found =>
      s!"sql parser error: Expected: {expected}, found: {foundText found}"
  | refused reason position => "sql parser error: " ++ reason ++ placeText position
  | tooDeep => "sql parser error: recursion limit exceeded"

/-- A reader of a piece of grammar. It reads from the lexemes that are left, and those that it
leaves are the last of them. -/
structure Parse (α : Type) where
  run : List Lexeme → Except SyntaxError α × List Lexeme
  suffix : ∀ left, (run left).2 <:+ left

namespace Parse

/-- Reads one piece of grammar and then another, unless the first reading fails. -/
protected def bind {α β : Type} (p : Parse α) (f : α → Parse β) : Parse β where
  run left :=
    match p.run left with
    | (.ok a, rest) => (f a).run rest
    | (.error e, rest) => (.error e, rest)
  suffix left := by
    have h := p.suffix left
    split
    · next a rest heq =>
        rw [heq] at h
        exact ((f a).suffix rest).trans h
    · next e rest heq =>
        rw [heq] at h
        exact h

/-- Goes on with a failure where the reading that failed has stopped. -/
protected def handle {α : Type} (p : Parse α) (f : SyntaxError → Parse α) : Parse α where
  run left :=
    match p.run left with
    | (.ok a, rest) => (.ok a, rest)
    | (.error e, rest) => (f e).run rest
  suffix left := by
    have h := p.suffix left
    split
    · next a rest heq =>
        rw [heq] at h
        exact h
    · next e rest heq =>
        rw [heq] at h
        exact ((f e).suffix rest).trans h

end Parse

instance : Monad Parse where
  pure a := { run := fun left => (.ok a, left), suffix := List.suffix_refl }
  bind := Parse.bind

instance : MonadExceptOf SyntaxError Parse where
  throw e := { run := fun left => (.error e, left), suffix := List.suffix_refl }
  tryCatch := Parse.handle

/-- The lexemes that are left, and nothing is taken. -/
def ahead : Parse (List Lexeme) where
  run left := (.ok left, left)
  suffix := List.suffix_refl

/-- The lexemes from the first token on that is no gap. -/
def afterGaps (left : List Lexeme) : List Lexeme := left.dropWhile (·.token.isGap)

/-- The token `n` places ahead, and nothing is taken. -/
def lexemeAhead : Nat → List Lexeme → Option Lexeme
  | 0, left => (afterGaps left).head?
  | n + 1, left => lexemeAhead n (afterGaps left).tail

/-- The token of a lexeme that was found. -/
def tokenOf (found : Option Lexeme) : Option Token := found.map (·.token)

/-- The next token with its place, and nothing is taken. -/
def peek : Parse (Option Lexeme) := return (afterGaps (← ahead)).head?

/-- The token `n` places ahead, and nothing is taken. -/
def peekToken (n : Nat) : Parse (Option Token) := return tokenOf (lexemeAhead n (← ahead))

/-- Takes the next token. -/
def next : Parse (Option Lexeme) where
  run left := (.ok (afterGaps left).head?, (afterGaps left).tail)
  suffix _ := (List.tail_suffix _).trans (List.dropWhile_suffix _)

/-- Takes the next token and nothing else of it. -/
def skip : Parse Unit := discard next

/-- Takes tokens. -/
def skips (n : Nat) : Parse Unit := (List.range n).forM fun _ => skip

/-- The place of the next token. -/
def here : Parse (Option Position) := return (← peek).map (·.position)

/-- How many lexemes are left; no reading takes more tokens than that. -/
def remaining : Parse Nat := return (← ahead).length

/-- Fails at a token that is not the one expected. -/
def unexpected {α : Type} (expected : String) (found : Option Lexeme) : Parse α :=
  throw (.unexpected expected found)

/-- Fails at the next token. -/
def failHere {α : Type} (expected : String) : Parse α := do unexpected expected (← peek)

/-- Takes the next token and fails at it. -/
def failNext {α : Type} (expected : String) : Parse α := do unexpected expected (← next)

/-- Refuses what was read, at the next token. -/
def refuseHere {α : Type} (reason : String) : Parse α := do throw (.refused reason (← here))

/-- Reads a piece of grammar if it is there. Nesting too deep stays an error. -/
def maybe {α : Type} (p : Parse α) : Parse (Option α) where
  run left :=
    match p.run left with
    | (.ok a, rest) => (.ok (some a), rest)
    | (.error .tooDeep, rest) => (.error .tooDeep, rest)
    | (.error _, _) => (.ok none, left)
  suffix left := by
    have h := p.suffix left
    split
    · next heq => rwa [heq] at h
    · next heq => rwa [heq] at h
    · exact List.suffix_refl left

/-- Reads a piece of grammar, and goes on where the reading stopped if it fails. -/
def attempt {α : Type} (p : Parse α) : Parse (Option α) :=
  try some <$> p catch _ => pure none

/-- Reads a piece of grammar. Where that fails, the lexemes it began with are left. -/
def restored {α : Type} (p : Parse α) : Parse α where
  run left :=
    match p.run left with
    | (.ok a, rest) => (.ok a, rest)
    | (.error e, _) => (.error e, left)
  suffix left := by
    have h := p.suffix left
    split
    · next heq => rwa [heq] at h
    · exact List.suffix_refl left

/-- Reads a piece of grammar. Where there turns out to be none, the lexemes it began with are
left. -/
def unlessNone {α : Type} (p : Parse (Option α)) : Parse (Option α) where
  run left :=
    match p.run left with
    | (.ok none, _) => (.ok none, left)
    | (outcome, rest) => (outcome, rest)
  suffix left := by
    have h := p.suffix left
    split
    · exact List.suffix_refl left
    · next heq => rwa [heq] at h

/-! ## Keywords and symbols -/

/-- The keyword that a token is; no keyword is empty. -/
def keywordOf (token : Option Token) : String :=
  match token with
  | some (.word w) => w.keyword
  | _ => ""

/-- The next keyword, and nothing is taken. -/
def peekKeyword : Parse String := return keywordOf (← peekToken 0)

/-- Whether the next tokens are some keywords in a row, and nothing is taken. -/
def atKeywords (words : List String) : Parse Bool := do
  let left ← ahead
  return words.zipIdx.all fun (word, n) => keywordOf (tokenOf (lexemeAhead n left)) == word

/-- Takes a keyword if it is next. -/
def keyword? (word : String) : Parse Bool := do
  if (← peekKeyword) == word then skip; return true
  else return false

/-- Takes keywords in a row if they are next, all or none. -/
def keywords? (words : List String) : Parse Bool := do
  if ← atKeywords words then
    skips words.length
    return true
  else return false

/-- Takes the next keyword if it is one of a list. -/
def oneOf? (words : List String) : Parse (Option String) := do
  let word ← peekKeyword
  if words.contains word then skip; return some word
  else return none

/-- Takes a keyword that has to be next. -/
def expectKeyword (word : String) : Parse Unit := do
  unless ← keyword? word do failHere word

/-- Takes keywords that have to follow one another. -/
def expectKeywords (words : List String) : Parse Unit := words.forM expectKeyword

/-- Takes one of several keywords that have to be next. -/
def expectOneOf (words : List String) : Parse String := do
  match ← oneOf? words with
  | some word => return word
  | none => failHere ("one of " ++ " or ".intercalate words)

/-- Whether a symbol is next, and nothing is taken. -/
def atSymbol (s : Symbol) : Parse Bool := return (← peekToken 0) == some (.symbol s)

/-- Takes a symbol if it is next. -/
def symbol? (s : Symbol) : Parse Bool := do
  if ← atSymbol s then skip; return true
  else return false

/-- Takes a symbol that has to be next. -/
def expectSymbol (s : Symbol) : Parse Unit := do
  unless ← symbol? s do failHere s.text

/-! ## Rows and groups -/

/-- Reads on as long as there is more, at most as often as the first number says. -/
def collect {α : Type} (step : Parse (Option α)) : Nat → List α → Parse (List α)
  | 0, done => return done.reverse
  | fuel + 1, done => do
      match ← step with
      | some a => collect step fuel (a :: done)
      | none => return done.reverse

/-- Reads as often as there is more; every reading takes a token. -/
def many {α : Type} (step : Parse (Option α)) : Parse (List α) := do
  collect step ((← remaining) + 1) []

/-- Reads a row that goes on after `more`, with what was read of it before. -/
def rowFrom {α : Type} (p : Parse α) (more : Parse Bool) : Nat → List α → Parse (List α)
  | 0, done => return done.reverse
  | fuel + 1, done => do
      let a ← p
      if ← more then rowFrom p more fuel (a :: done)
      else return (a :: done).reverse

/-- Reads a row of one or more that goes on after `more`, which takes a token. -/
def rowWhile {α : Type} (p : Parse α) (more : Parse Bool) : Parse (List α) := do
  rowFrom p more ((← remaining) + 1) []

/-- Reads a row of one or more with commas between. -/
def commaSeparated {α : Type} (p : Parse α) : Parse (List α) := rowWhile p (symbol? .comma)

/-- Reads a row with commas between, which is empty where a closing symbol is next. -/
def commaSeparatedOrNone {α : Type} (p : Parse α) (closing : Symbol) : Parse (List α) := do
  if ← atSymbol closing then return []
  else commaSeparated p

/-- Reads something in parentheses. -/
def parens {α : Type} (p : Parse α) : Parse α := do
  expectSymbol .leftParen
  let a ← p
  expectSymbol .rightParen
  return a

/-- Reads something if a keyword comes before it. -/
def after? {α : Type} (word : String) (p : Parse α) : Parse (Option α) := do
  if ← keyword? word then return some (← p)
  else return none

/-- Reads something if keywords come before it. -/
def afterAll? {α : Type} (words : List String) (p : Parse α) : Parse (Option α) := do
  if ← keywords? words then return some (← p)
  else return none

/-! ## Numbers -/

/-- The number that digits after a number write, where it fits in some bits, or why they do not. -/
def countFrom (bits n : Nat) : List Char → Except String Nat
  | [] => .ok n
  | c :: rest =>
      if !c.isDigit then .error "invalid digit found in string"
      else if n * 10 + (c.toNat - '0'.toNat) ≥ Nat.pow 2 bits then
        .error "number too large to fit in target type"
      else countFrom bits (n * 10 + (c.toNat - '0'.toNat)) rest

/-- The count that digits at a place write in some bits. -/
def countOf (bits : Nat) (digits : String) (position : Option Position) : Parse Nat :=
  match countFrom bits 0 digits.toList with
  | .ok n => return n
  | .error reason =>
      throw (.refused s!"Could not parse '{digits}' as u{bits}: {reason}" position)

/-- Reads a count that fits in some bits. -/
def countIn (bits : Nat) : Parse Nat := do
  let found ← next
  match found with
  | some ⟨.number digits _, position⟩ => countOf bits digits (some position)
  | _ => unexpected "literal int" found

/-- Reads a count that fits in sixty-four bits. -/
def count : Parse Nat := countIn 64

/-! ## Pieces of clauses -/

/-- Rows of pieces with commas between them. -/
def listedPieces : List (List Piece) → List Piece
  | [] => []
  | [row] => row
  | row :: rest => row ++ .text ", " :: listedPieces rest

/-- Expressions with commas between them. -/
def listedExprs (es : List Expr) : List Piece := listedPieces (es.map fun e => [.expr e])

/-- Pieces with wording before them, where there are any. -/
def optionalPieces (opening : String) (pieces : Option (List Piece)) (closing : String) :
    List Piece :=
  match pieces with
  | some pieces => .text opening :: pieces ++ [.text closing]
  | none => []

/-- An expression with wording before it, where there is one. -/
def optionalExpr (opening : String) (e : Option Expr) : List Piece :=
  match e with
  | some e => [.text opening, .expr e]
  | none => []

/-! ## Levels of nesting -/

/-- The readings that nest: whole statements, whole queries, and expressions whose operators bind
tighter than some number. A part takes its own parts from the next level down. `prior` tells that
the word `PRIOR` is an operator, and `linking` reads expressions in which it is one. -/
structure Level where
  dialect : Dialect
  prior : Bool
  statement : Parse Statement
  query : Parse Query
  expr : Nat → Parse Expr
  linking : Nat → Parse Expr

/-- The level below all others, where everything is nested too deep. -/
def Level.bottom (d : Dialect) (prior : Bool) : Level where
  dialect := d
  prior := prior
  statement := throw .tooDeep
  query := throw .tooDeep
  expr _ := throw .tooDeep
  linking _ := throw .tooDeep

end TypedSql.Grammar
