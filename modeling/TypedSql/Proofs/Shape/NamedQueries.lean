import TypedSql.Analysis
import TypedSql.Proofs.Grammar.Reading
import TypedSql.Proofs.Outcome

namespace TypedSql.Grammar

/-! # Named queries before a statement

A query reads the same with named queries before it: only its opening is another. An insert or an
update, though, is a statement of its own without named queries and the body of a query with them,
and the body of a query has a shape only where it starts with a select.
-/

/-! ## Queries -/

/-- A query with another opening. -/
def withOpening (opening : List Piece) : Query → Query
  | .mk _ body closing => .mk opening body closing

/-- Reads a query after the named queries before it. -/
def queryAfter (inner : Level) (opening : List Piece) : Parse Query := do
  if ← keyword? "INSERT" then
    match ← insert inner with
    | .table i => return .mk opening (.insert i) []
    | .directory pieces => return .mk opening (.other pieces) []
  else if ← keyword? "UPDATE" then return .mk opening (.update (← update inner)) []
  else
    let body ← body inner
    return .mk opening body (← queryClosing inner)

/-- A query is read after its named queries. -/
theorem query_eq (inner : Level) : query inner = namedQueries inner >>= queryAfter inner := rfl

/-- What is read before a query opens it and makes no other difference. -/
theorem queryAfter_eq (inner : Level) (opening : List Piece) :
    queryAfter inner opening = withOpening opening <$> queryAfter inner [] := by
  unfold queryAfter
  rw [map_bind]
  congr 1
  funext isInsert
  cases isInsert with
  | true =>
      simp only [if_true, map_bind]
      congr 1
      funext form
      cases form <;> simp [withOpening]
  | false =>
      simp only [Bool.false_eq_true, if_false, map_bind]
      congr 1
      funext isUpdate
      cases isUpdate <;> simp [withOpening]

section

variable {d : Dialect} {depth : Nat} {inner : Level} {left rest after : List Lexeme}
  {opening : List Piece} {q : Query}

/-- There are no named queries where the first keyword is not `WITH`. -/
theorem run_namedQueries_of_ne (h : firstKeyword left ≠ "WITH") :
    (namedQueries inner).run left = (.ok [], left) := by
  rw [namedQueries, run_bind_of_ok (run_keyword?_of_ne h)]
  rfl

/-- A query without named queries is read from its body on. -/
theorem run_query_of_ne (h : firstKeyword left ≠ "WITH") :
    (query inner).run left = (queryAfter inner []).run left := by
  rw [query_eq, run_bind_of_ok (run_namedQueries_of_ne h)]

/-- Named queries change the opening of the query after them and nothing else. -/
theorem run_query_of_namedQueries (h : (namedQueries inner).run left = (.ok opening, rest))
    (hrest : firstKeyword rest ≠ "WITH") :
    (query inner).run left = (withOpening opening <$> query inner).run rest := by
  rw [query_eq, run_bind_of_ok h, queryAfter_eq, run_map, run_map, ← query_eq,
    run_query_of_ne hrest]

/-- What starts with the word of an insert or an update is no select. -/
theorem leadingSelect_of_run_query (h : (query inner).run left = (.ok q, after))
    (hleft : firstKeyword left = "INSERT" ∨ firstKeyword left = "UPDATE") :
    Shape.leadingSelect q.body = none := by
  have hwith : firstKeyword left ≠ "WITH" := by
    rcases hleft with hleft | hleft <;> simp [hleft]
  rw [run_query_of_ne hwith, queryAfter] at h
  rcases hleft with hleft | hleft
  · rw [run_bind_of_ok (run_keyword?_of_eq hleft), if_pos rfl] at h
    obtain ⟨form, between, -, hform⟩ := run_bind_eq_ok.1 h
    cases form <;> cases hform <;> rfl
  · have hinsert : firstKeyword left ≠ "INSERT" := by simp [hleft]
    rw [run_bind_of_ok (run_keyword?_of_ne hinsert), if_neg (by simp),
      run_bind_of_ok (run_keyword?_of_eq hleft), if_pos rfl] at h
    obtain ⟨u, between, -, hupdate⟩ := run_bind_eq_ok.1 h
    cases hupdate
    rfl

/-! ## Statements -/

/-- A statement that starts with `SELECT` or `WITH` is a query. -/
theorem run_statement_query {word : String} (h : firstKeyword left = word)
    (hword : word = "SELECT" ∨ word = "WITH") :
    (levels d (depth + 2)).statement.run left =
      (Statement.query <$> query (levels d depth)).run left := by
  rw [levels_statement, ← levels_query]
  rcases hword with rfl | rfl <;> exact run_statement h (by decide) rfl

/-- A statement that starts with `INSERT` is an insert. -/
theorem run_statement_insert (h : firstKeyword left = "INSERT") :
    (levels d (depth + 2)).statement.run left =
      (insertStatement (levels d (depth + 1))).run (afterGaps left).tail := by
  rw [levels_statement, run_statement h (by decide) rfl]
  rfl

/-- A statement that starts with `UPDATE` is an update. -/
theorem run_statement_update (h : firstKeyword left = "UPDATE") :
    (levels d (depth + 2)).statement.run left =
      (Statement.update <$> update (levels d (depth + 1))).run (afterGaps left).tail := by
  rw [levels_statement, run_statement h (by decide) rfl]
  rfl

/-- A statement after named queries is a query, whatever it is without them. -/
theorem exists_query_of_namedQueries {s' : Statement} (hwith : firstKeyword left = "WITH")
    (hqueries : (namedQueries (levels d depth)).run left = (.ok opening, rest))
    (hrest : firstKeyword rest ≠ "WITH")
    (hs' : (levels d (depth + 2)).statement.run left = (.ok s', after)) :
    ∃ q, (query (levels d depth)).run rest = (.ok q, after) ∧
      s' = .query (withOpening opening q) := by
  rw [run_statement_query hwith (.inr rfl), run_map, run_query_of_namedQueries hqueries hrest,
    run_map] at hs'
  obtain ⟨houtcome, hafter⟩ := Prod.mk.inj hs'
  obtain ⟨q', hq', rfl⟩ := Outcome.map_eq_ok.1 houtcome
  obtain ⟨q, hq, rfl⟩ := Outcome.map_eq_ok.1 hq'
  exact ⟨q, Prod.ext hq hafter, rfl⟩

/-- What an insert or an update is read as has not the shape of a select. -/
theorem shape_of_change {s : Statement} {sql : String} {found : Shape.Found}
    (hleft : firstKeyword left = "INSERT" ∨ firstKeyword left = "UPDATE")
    (hs : (levels d (depth + 2)).statement.run left = (.ok s, after))
    (hfound : Shape.ofStatement sql s = .ok found) : found.shape.kind ≠ .select := by
  rcases hleft with hleft | hleft
  · rw [run_statement_insert hleft] at hs
    obtain ⟨form, between, -, hform⟩ := run_bind_eq_ok.1 hs
    cases form with
    | table i =>
        cases hform
        cases hfound
        obtain ⟨_, _, _, _, conflict, _⟩ := i
        cases conflict <;> simp [Shape.ofInsert]
    | directory pieces =>
        cases hform
        cases hfound
  · rw [run_statement_update hleft] at hs
    obtain ⟨u, between, -, hupdate⟩ := run_bind_eq_ok.1 hs
    cases hupdate
    cases hfound
    obtain ⟨_, _, _, _⟩ := u
    simp [Shape.ofUpdate, Shape.ofParts]

end

/-- Named queries make no difference to the shape of a query. -/
theorem shape_withOpening (opening : List Piece) (q : Query) :
    Shape.ofQuery (withOpening opening q) = Shape.ofQuery q := by
  obtain ⟨_, _, _⟩ := q
  rfl

/-- A query that starts with no select names nothing. -/
theorem shape_of_leadingSelect {q : Query} (h : Shape.leadingSelect q.body = none) :
    Shape.ofQuery q = ⟨⟨.select, [], []⟩, [Shape.skipped "query body" q.body.text]⟩ := by
  simp [Shape.ofQuery, h]

/-- A query that starts with no select is never refused for a relation that it changes. -/
theorem ofStatement_of_leadingSelect (schema : Schema) (sql : String) {q : Query}
    (h : Shape.leadingSelect q.body = none) :
    Analysis.ofStatement schema sql (.query q) =
      .ok ⟨.select, [], [], [Shape.skipped "query body" q.body.text]⟩ := by
  have hfound : Shape.ofStatement sql (.query q) =
      .ok ⟨⟨.select, [], []⟩, [Shape.skipped "query body" q.body.text]⟩ := by
    rw [Shape.ofStatement, shape_of_leadingSelect h]
  rw [Analysis.ofStatement, hfound]
  rfl

/-- With named queries before it a select keeps its shape and all that is found out about it. An
insert or an update does not: it becomes a select without relations, whatever the schema is. -/
theorem shape_namedQueries_iff {d : Dialect} {depth : Nat} {left rest after after' : List Lexeme}
    {opening : List Piece} {s s' : Statement} (hwith : firstKeyword left = "WITH")
    (hqueries : (namedQueries (levels d depth)).run left = (.ok opening, rest))
    (hword : firstKeyword rest ∈ ["SELECT", "INSERT", "UPDATE"])
    (hprefixed : (levels d (depth + 2)).statement.run left = (.ok s', after'))
    (hbare : (levels d (depth + 2)).statement.run rest = (.ok s, after)) (sql : String) :
    ((Shape.ofStatement sql s').map Shape.Found.shape =
        (Shape.ofStatement sql s).map Shape.Found.shape ↔ firstKeyword rest = "SELECT") ∧
      (firstKeyword rest = "SELECT" → after' = after ∧ ∀ schema,
        Analysis.ofStatement schema sql s' = Analysis.ofStatement schema sql s) ∧
      (firstKeyword rest ≠ "SELECT" → ∃ finding, ∀ schema,
        Analysis.ofStatement schema sql s' = .ok ⟨.select, [], [], [finding]⟩) := by
  have hrest : firstKeyword rest ≠ "WITH" := by
    intro h
    simp [h] at hword
  obtain ⟨q, hq, rfl⟩ := exists_query_of_namedQueries hwith hqueries hrest hprefixed
  have hshape : Shape.ofStatement sql (.query (withOpening opening q)) = .ok (Shape.ofQuery q) :=
    congrArg Except.ok (shape_withOpening opening q)
  have hanalysis : ∀ schema, Analysis.ofStatement schema sql (.query (withOpening opening q)) =
      Analysis.ofStatement schema sql (.query q) := by
    intro schema
    rw [Analysis.ofStatement, hshape, Analysis.ofStatement, Shape.ofStatement]
  by_cases hselect : firstKeyword rest = "SELECT"
  · -- Both statements are the same query, but for its opening.
    rw [run_statement_query hselect (.inl rfl), run_map, hq] at hbare
    cases hbare
    refine ⟨iff_of_true ?_ hselect, fun _ => ⟨rfl, hanalysis⟩, fun h => absurd hselect h⟩
    rw [hshape, Shape.ofStatement]
  · have hchange : firstKeyword rest = "INSERT" ∨ firstKeyword rest = "UPDATE" := by
      simpa [hselect] using hword
    have hleading := leadingSelect_of_run_query hq hchange
    refine ⟨iff_of_false ?_ hselect, fun h => absurd h hselect, fun _ => ?_⟩
    · intro hsame
      rw [hshape, shape_of_leadingSelect hleading] at hsame
      obtain ⟨found, hfound, hkind⟩ := Outcome.map_eq_ok.1 hsame.symm
      exact shape_of_change hchange hbare hfound (by rw [hkind])
    · refine ⟨Shape.skipped "query body" q.body.text, fun schema => ?_⟩
      rw [hanalysis, ofStatement_of_leadingSelect schema sql hleading]

/-- A select after a named query has the contract that it has without. -/
theorem shape_namedQueries_select :
    let left := (Lexer.lexemes .postgres "with x as (select 1) select id from x").toOption.getD []
    let rest := ((namedQueries (levels .postgres 48)).run left).2
    firstKeyword left = "WITH" ∧ firstKeyword rest = "SELECT" ∧
      ∃ s s' after, (levels .postgres maxDepth).statement.run left = (.ok s', after) ∧
        (levels .postgres maxDepth).statement.run rest = (.ok s, after) ∧
        ∀ schema, Analysis.ofStatement schema "" s' = Analysis.ofStatement schema "" s := by
  intro left rest
  have hwith : firstKeyword left = "WITH" := by decide +kernel
  have hselect : firstKeyword rest = "SELECT" := by decide +kernel
  obtain ⟨opening, hqueries⟩ := exists_run_of_isOk (namedQueries (levels .postgres 48)) left
    (by decide +kernel)
  obtain ⟨s', hprefixed⟩ := exists_run_of_isOk (levels .postgres maxDepth).statement left
    (by decide +kernel)
  obtain ⟨s, hbare⟩ := exists_run_of_isOk (levels .postgres maxDepth).statement rest
    (by decide +kernel)
  have hword : firstKeyword rest ∈ ["SELECT", "INSERT", "UPDATE"] := by
    rw [hselect]
    decide
  have hiff := shape_namedQueries_iff hwith hqueries hword hprefixed hbare ""
  obtain ⟨hafter, hsame⟩ := hiff.2.1 hselect
  exact ⟨hwith, hselect, s, s', _, hprefixed, hafter ▸ hbare, hsame⟩

/-- The shapes of the statements of a text, none for a command. -/
def shapes? (d : Dialect) (text : String) : Option (List (Option StatementShape)) :=
  (parse d text).toOption.map fun statements =>
    statements.map fun s => (Shape.ofStatement text s).toOption.map Shape.Found.shape

/-- An insert after a named query is a select of nothing. -/
theorem shapes_namedQueries_insert :
    shapes? .postgres "insert into products (id) values (1)" =
        some [some ⟨.insert, [], [⟨"products", none⟩]⟩] ∧
      shapes? .postgres "with x as (select 1) insert into products (id) values (1)" =
        some [some ⟨.select, [], []⟩] := by
  decide +kernel

end TypedSql.Grammar
