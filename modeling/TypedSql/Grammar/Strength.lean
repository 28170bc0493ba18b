import TypedSql.Grammar.Basic

/-!
# How tight operators bind

An operator takes the operand before it from every operator that binds less tight. The strengths are
numbers, and zero means that a token goes on with no expression.
-/

namespace TypedSql.Grammar

/-- How tight the kinds of operators bind. -/
structure Strengths where
  cast : Nat
  subscript : Nat
  collate : Nat
  timeZone : Nat
  times : Nat
  plus : Nat
  xor : Nat
  ampersand : Nat
  caret : Nat
  pipe : Nat
  between : Nat
  compare : Nat
  like : Nat
  is : Nat
  other : Nat
  not : Nat
  and : Nat
  or : Nat
  deriving DecidableEq, Repr

/-- The strengths in all dialects but one. A collation is part of an operand there. -/
def Strengths.standard : Strengths where
  cast := 50
  subscript := 50
  collate := 0
  timeZone := 41
  times := 40
  plus := 30
  xor := 24
  ampersand := 23
  caret := 22
  pipe := 21
  between := 20
  compare := 20
  like := 19
  is := 17
  other := 16
  not := 15
  and := 10
  or := 5

/-- The strengths of the dialect that lets operators be defined. -/
def Strengths.extensible : Strengths where
  cast := 140
  subscript := 130
  collate := 120
  timeZone := 110
  times := 90
  plus := 80
  xor := 75
  ampersand := 70
  caret := 100
  pipe := 70
  between := 60
  compare := 50
  like := 60
  is := 40
  other := 70
  not := 30
  and := 20
  or := 10

/-- The strengths in a dialect. -/
def strengths (d : Dialect) : Strengths :=
  match d with
  | .postgres => .extensible
  | _ => .standard

/-- The strength of an operator that is a keyword. The two tokens after it tell whether it is an
operator at all. -/
def keywordStrength (s : Strengths) (word second third : String) : Nat :=
  match word with
  | "OR" => s.or
  | "AND" => s.and
  | "XOR" => s.xor
  | "AT" => if second == "TIME" && third == "ZONE" then s.timeZone else 0
  | "NOT" =>
      match second with
      | "IN" | "BETWEEN" => s.between
      | "LIKE" | "ILIKE" | "RLIKE" | "REGEXP" | "SIMILAR" => s.like
      | _ => 0
  | "IS" => s.is
  | "IN" | "BETWEEN" | "OPERATOR" => s.between
  | "LIKE" | "ILIKE" | "RLIKE" | "REGEXP" | "SIMILAR" => s.like
  | "DIV" => s.times
  | "COLLATE" => s.collate
  | _ => 0

/-- The strength of an operator that is a symbol. -/
def symbolStrength (d : Dialect) (symbol : Symbol) : Nat :=
  let s := strengths d
  match symbol with
  | .equal | .doubleEqual | .notEqual | .less | .lessEqual | .greater | .greaterEqual | .spaceship
  | .tilde | .tildeStar | .bangTilde | .bangTildeStar | .doubleTilde | .doubleTildeStar
  | .bangDoubleTilde | .bangDoubleTildeStar => s.compare
  | .pipe => s.pipe
  | .caret => s.caret
  | .hash | .shiftLeft | .shiftRight => if d == .postgres then s.other else s.caret
  | .ampersand => s.ampersand
  | .plus | .minus => s.plus
  | .star | .slash | .doubleSlash | .percent => s.times
  | .doublePipe => if d == .postgres then s.other else s.times
  | .doubleColon => s.cast
  | .leftBracket => s.subscript
  | .bang | .doubleAmpersand | .caretAt => if d == .postgres then s.other else s.cast
  | .arrow | .longArrow | .hashArrow | .hashLongArrow | .atArrow | .arrowAt | .hashMinus
  | .atQuestion | .doubleAt | .question | .questionAnd | .questionPipe => s.other
  | _ => 0

/-- The strength of the next token as an operator. -/
def nextStrength (d : Dialect) : Parse Nat := do
  match ← peekToken 0 with
  | some (.word w) =>
      return keywordStrength (strengths d) w.keyword (keywordOf (← peekToken 1))
        (keywordOf (← peekToken 2))
  | some (.symbol s) => return symbolStrength d s
  | some (.operator _) => return (strengths d).other
  | _ => return 0

end TypedSql.Grammar
