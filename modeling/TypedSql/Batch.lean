import TypedSql.Resolve
import TypedSql.Shape

/-!
# Statements in a batch

Steps taken one after another that leave their findings in one list. What a step finds does not
depend on the steps before it: it only comes after their findings.
-/

namespace TypedSql.Batch

/-- What there is after a step: its result, and the findings of all steps so far. -/
structure Progress (ε α : Type) where
  result : Except ε α
  findings : List Diagnostic

/-- Takes a step for each input. A step that fails leaves no findings, and those after it are
taken all the same. -/
def inTurn {ε α β : Type} (step : α → Except ε (β × List Diagnostic)) (before : List Diagnostic) :
    List α → List (Progress ε β)
  | [] => []
  | x :: rest =>
      match step x with
      | .ok (result, findings) =>
          ⟨.ok result, before ++ findings⟩ :: inTurn step (before ++ findings) rest
      | .error e => ⟨.error e, before⟩ :: inTurn step before rest

/-- The shapes of the statements of a text. -/
def shapes (sql : String) (statements : List Statement) :
    List (Progress Shape.Unsupported StatementShape) :=
  inTurn (fun s => (Shape.ofStatement sql s).map fun found => (found.shape, found.findings)) []
    statements

/-- The outputs of shapes. -/
def outputs (schema : Schema) (shapes : List StatementShape) :
    List (Progress Resolve.UnknownRelation (List OutputField)) :=
  inTurn (Resolve.resolve schema) [] shapes

theorem length_inTurn {ε α β : Type} (step : α → Except ε (β × List Diagnostic))
    (before : List Diagnostic) (xs : List α) : (inTurn step before xs).length = xs.length := by
  induction xs generalizing before with
  | nil => rfl
  | cons x rest ih => simp only [inTurn]; split <;> simp [ih]

end TypedSql.Batch
