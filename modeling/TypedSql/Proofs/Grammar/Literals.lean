import TypedSql.Statement

namespace TypedSql

/-! # The constants of a statement

The constants that are parts of a statement, in the order in which it writes them. A command keeps
none of its parts.
-/

mutual

/-- The constants in an expression. -/
def Expr.literals : Expr → List Literal
  | .name _ | .path _ => []
  | .literal l => [l]
  | .nested e | .unary _ e => e.literals
  | .binary left _ right => left.literals ++ right.literals
  | .subquery q => q.literals
  | .form pieces => pieceLiterals pieces

/-- The constants in a piece. -/
def Piece.literals : Piece → List Literal
  | .text _ => []
  | .expr e => e.literals
  | .query q => q.literals
  | .table t => t.literals

/-- The constants in pieces. -/
def pieceLiterals : List Piece → List Literal
  | [] => []
  | piece :: rest => piece.literals ++ pieceLiterals rest

/-- The constants in a query. -/
def Query.literals : Query → List Literal
  | .mk opening body closing => pieceLiterals opening ++ body.literals ++ pieceLiterals closing

/-- The constants in the body of a query. -/
def QueryBody.literals : QueryBody → List Literal
  | .select s => s.literals
  | .query q => q.literals
  | .combined left _ right => left.literals ++ right.literals
  | .insert i => i.literals
  | .update u => u.literals
  | .other pieces => pieceLiterals pieces

/-- The constants in a select. -/
def Select.literals : Select → List Literal
  | .mk _ leading items _ sources closing =>
      pieceLiterals leading ++ itemLiterals items ++ sourceLiterals sources ++ pieceLiterals closing

/-- The constants in an item. -/
def SelectItem.literals : SelectItem → List Literal
  | .wildcard options | .qualifiedWildcard _ options => pieceLiterals options
  | .plain e | .aliased e _ => e.literals

/-- The constants in items. -/
def itemLiterals : List SelectItem → List Literal
  | [] => []
  | item :: rest => item.literals ++ itemLiterals rest

/-- The constants in the returned items. -/
def returningLiterals : Option (List SelectItem) → List Literal
  | none => []
  | some items => itemLiterals items

/-- The constants in a table reference. -/
def TableFactor.literals : TableFactor → List Literal
  | .named _ _ arguments _ _ closing => optionLiterals arguments ++ pieceLiterals closing
  | .joined t _ => t.literals
  | .other pieces _ closing => pieceLiterals pieces ++ pieceLiterals closing

/-- The constants in pieces that may be absent. -/
def optionLiterals : Option (List Piece) → List Literal
  | none => []
  | some pieces => pieceLiterals pieces

/-- The constants in a table with its joins. -/
def TableWithJoins.literals : TableWithJoins → List Literal
  | .mk first joins => first.literals ++ joinLiterals joins

/-- The constants in tables. -/
def sourceLiterals : List TableWithJoins → List Literal
  | [] => []
  | table :: rest => table.literals ++ sourceLiterals rest

/-- The constants in a join. -/
def Join.literals : Join → List Literal
  | .mk _ right condition => right.literals ++ pieceLiterals condition

/-- The constants in joins. -/
def joinLiterals : List Join → List Literal
  | [] => []
  | join :: rest => join.literals ++ joinLiterals rest

/-- The constants in an insert. -/
def Insert.literals : Insert → List Literal
  | .mk _ _ _ rows conflict returning =>
      pieceLiterals rows ++ optionLiterals conflict ++ returningLiterals returning

/-- The constants in an update. -/
def Update.literals : Update → List Literal
  | .mk _ target changes returning =>
      target.literals ++ pieceLiterals changes ++ returningLiterals returning

end

/-- The constants in a delete. -/
def Delete.literals (d : Delete) : List Literal :=
  sourceLiterals d.targets ++ returningLiterals d.returning ++ pieceLiterals d.clauses

/-- The constants in a statement. -/
def Statement.literals : Statement → List Literal
  | .query q => q.literals
  | .insert i => i.literals
  | .update u => u.literals
  | .delete d => d.literals
  | .command _ => []

/-- The texts of the placeholders among constants. -/
def Literal.placeholder? : Literal → Option String
  | .placeholder text => some text
  | _ => none

end TypedSql
