import TypedSql.Proofs.Faithful.Queries

namespace TypedSql.Grammar

/-! # Faithful statements

All readings of statements, queries and expressions are faithful, however deep they nest. So each
placeholder in a parsed statement is read for a constant at some place of its text.
-/

section

variable {all : List Lexeme} {inner : Level} [inner.Faithful all]

/-- An insert into a directory is a command, which holds no placeholder. -/
@[simp] theorem faithful_insertStatement : Faithful all (insertStatement inner) := by
  refine faithful_insert.bind fun form hform => ?_
  cases form with
  | table i => simpa using hform
  | directory pieces => simp

/-- A statement on rows is read faithfully, whichever word it starts with. -/
theorem faithful_rowStatement? {word : String} {read : Parse Statement}
    (h : rowStatement? inner word = some read) : Faithful all read := by
  have hquery : Faithful all (Statement.query <$> inner.query) :=
    faithful_map Level.Faithful.query fun q hq => by simpa using hq
  unfold rowStatement? at h
  -- One case for each of the words that a statement on rows starts with.
  split at h <;> cases h
  · exact hquery
  · exact hquery
  · exact hquery
  · exact .skip fun _ => faithful_delete.bind fun d hd => by simpa using hd
  · exact .skip fun _ => faithful_insertStatement
  · exact .skip fun _ => faithful_update.bind fun u hu => by simpa using hu
  · split
    · exact faithful_insertStatement
    · exact .skip fun _ => faithful_insertStatement
    · exact .skip fun _ => faithful_insertStatement
    · exact .skip fun _ => faithful_refuseHere _

/-- A statement is one on rows, a query in parentheses, or a command. -/
@[simp] theorem faithful_statement : Faithful all (statement inner) := by
  refine .skip fun kind? => ?_
  split
  · simp
  refine .skip fun token? => ?_
  split
  · split
    · next read heq => exact faithful_rowStatement? heq
    · exact .skip fun _ => .skip fun kind => by simp
    · simp
  · exact Level.Faithful.query.bind fun q hq => by simpa using hq
  · simp

end

section

variable (all : List Lexeme) (d : Dialect)

/-- Below the last level nothing is read at all. -/
theorem Level.faithful_bottom (prior : Bool) : (Level.bottom d prior).Faithful all where
  statement := faithful_throw _
  query := faithful_throw _
  expr _ := faithful_throw _
  linking _ := faithful_throw _

/-- The readings of all levels are faithful, with and without `PRIOR` as an operator. -/
theorem faithful_levelPair (depth : Nat) :
    (levelPair d depth).1.Faithful all ∧ (levelPair d depth).2.Faithful all := by
  induction depth with
  | zero => exact ⟨Level.faithful_bottom all d false, Level.faithful_bottom all d true⟩
  | succ depth ih =>
      obtain ⟨_, _⟩ := ih
      constructor <;>
        exact ⟨faithful_statement, faithful_query, faithful_expression, faithful_expression⟩

instance (depth : Nat) : (levels d depth).Faithful all := (faithful_levelPair all d depth).1

end

end TypedSql.Grammar
