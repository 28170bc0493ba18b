import TypedSql.Grammar.Basic

/-!
# Reading scripts

Statements with semicolons between them, as they stand in a text or in the body of a procedure.
-/

namespace TypedSql.Grammar

/-- Takes semicolons as long as they are next, and tells whether there are any. -/
def semicolons : Parse Bool := do
  let taken ← many do
    if ← symbol? .semicolon then return some () else return none
  return !taken.isEmpty

/-- Reads statements after those read before. The word `END` after a statement ends the reading, and
a statement may be next only after a semicolon. -/
def statementsFrom (one : Parse Statement) : Nat → List Statement → Parse (List Statement)
  | 0, done => return done.reverse
  | fuel + 1, done => do
      let parted ← semicolons
      match ← peekToken 0 with
      | none => return done.reverse
      | some token =>
          if !done.isEmpty && !parted then
            if keywordOf (some token) == "END" then return done.reverse
            else failHere "end of statement"
          else statementsFrom one fuel ((← one) :: done)

/-- Reads statements with semicolons between them. -/
def statements (one : Parse Statement) : Parse (List Statement) := do
  statementsFrom one ((← remaining) + 1) []

end TypedSql.Grammar
