import TypedSql.Analysis
import TypedSql.Proofs.Outcome

namespace TypedSql.Analysis

open Outcome

/-! # The first statement and all of them

`analyze` and `analyzeAll` go through the same steps in different orders: one reads the inputs after
it has taken the first statement, the other before it takes any. `contractOf` is the contract that
both make of a statement, and their answers are told by it.
-/

/-! ## The contract of a statement -/

/-- The contract of one statement of a file, with the inputs of the whole body. -/
def contractOf (d : Dialect) (schema : Schema) (source : String) (statement : Statement) :
    Except AnalysisError Contract :=
  let parts := FrontMatter.split source
  (ofStatement schema (trimmed parts.body) statement).map fun contract =>
    { contract with inputs := Placeholder.inputs d parts.body parts.metadata }

/-- The statements of the body of a file. -/
def bodyStatements (d : Dialect) (source : String) (file : Option Path) :
    Except AnalysisError (List Statement) :=
  statements d (FrontMatter.split source).body file

section

variable {d : Dialect} {schema : Schema} {source : String} {file : Option Path}

/-- A body that cannot be read has no contract. -/
theorem analyze_of_error {e : AnalysisError} (h : bodyStatements d source file = .error e) :
    analyze d schema source file = .error e := by
  unfold bodyStatements at h
  simp only [analyze, h]
  rfl

/-- A body without statements has no contract. -/
theorem analyze_of_nil (h : bodyStatements d source file = .ok []) :
    analyze d schema source file = .error .noStatement := by
  unfold bodyStatements at h
  simp only [analyze, h]
  rfl

/-- The contract of a body is that of its first statement, with a warning if there are others. -/
theorem analyze_of_cons {first : Statement} {rest : List Statement}
    (h : bodyStatements d source file = .ok (first :: rest)) :
    analyze d schema source file = (contractOf d schema source first).map fun r =>
      { r with
        diagnostics := r.diagnostics ++ if rest.isEmpty then [] else [ignored rest.length] } := by
  unfold bodyStatements at h
  simp only [analyze, h, contractOf, bind, Except.bind]
  cases ofStatement schema (trimmed (FrontMatter.split source).body) first with
  | error e => rfl
  | ok contract => rfl

/-- A body that cannot be read has no contracts. -/
theorem analyzeAll_of_error {e : AnalysisError} (h : bodyStatements d source file = .error e) :
    analyzeAll d schema source file = .error e := by
  unfold bodyStatements at h
  simp only [analyzeAll, h]
  rfl

theorem analyzeAll_of_nil (h : bodyStatements d source file = .ok []) :
    analyzeAll d schema source file = .error .noStatement := by
  unfold bodyStatements at h
  simp only [analyzeAll, h]
  rfl

/-- The contracts of a body are those of its statements, in order. -/
theorem analyzeAll_of_cons {first : Statement} {rest : List Statement}
    (h : bodyStatements d source file = .ok (first :: rest)) :
    analyzeAll d schema source file = (first :: rest).mapM (contractOf d schema source) := by
  unfold bodyStatements at h
  simp only [analyzeAll, h, bind, Except.bind]
  refine congrArg (fun f => (first :: rest).mapM f) (funext fun statement => ?_)
  simp only [contractOf]
  cases ofStatement schema (trimmed (FrontMatter.split source).body) statement with
  | error e => rfl
  | ok contract => rfl

end

/-! ## Findings of a statement -/

/-- What is found in the shape of a statement is that a part of it was passed over. -/
theorem skipped_of_skippedTables {tables : List TableWithJoins} :
    ∀ x ∈ Shape.skippedTables tables, ∃ what text, x = Shape.skipped what text := by
  intro x hx
  rcases List.mem_map.1 hx with ⟨table, _, rfl⟩
  exact ⟨_, _, rfl⟩

/-- About items only skipping is found. -/
theorem skipped_of_skippedItems {items : List SelectItem} :
    ∀ x ∈ Shape.skippedItems items, ∃ what text, x = Shape.skipped what text := by
  intro x hx
  rcases List.mem_map.1 hx with ⟨item, _, rfl⟩
  exact ⟨_, _, rfl⟩

/-- About the parts of a statement only skipping is found. -/
theorem skipped_of_ofParts {kind : StatementKind} {tables : List TableWithJoins}
    {items : List SelectItem} :
    ∀ x ∈ (Shape.ofParts kind tables items).findings, ∃ what text, x = Shape.skipped what text := by
  intro x hx
  rcases List.mem_append.1 hx with hx | hx
  · exact skipped_of_skippedTables x hx
  · exact skipped_of_skippedItems x hx

/-- About the shape of a statement only skipping is found. -/
theorem skipped_of_shape {sql : String} {statement : Statement} {found : Shape.Found}
    (h : Shape.ofStatement sql statement = .ok found) :
    ∀ x ∈ found.findings, ∃ what text, x = Shape.skipped what text := by
  cases statement with
  | query q =>
      cases h
      unfold Shape.ofQuery
      split
      · exact skipped_of_ofParts
      · intro x hx
        exact ⟨_, _, List.mem_singleton.1 hx⟩
  | insert i =>
      cases h
      cases i
      exact skipped_of_skippedItems
  | update u =>
      cases h
      cases u
      exact skipped_of_ofParts
  | delete d =>
      cases h
      exact skipped_of_ofParts
  | command kind => cases h

/-- About the outputs of a statement only unknown columns are found. -/
theorem unknownColumn_of_resolve {schema : Schema} {shape : StatementShape}
    {outputs : List OutputField} {findings : List Diagnostic}
    (h : Resolve.resolve schema shape = .ok (outputs, findings)) :
    ∀ x ∈ findings, ∃ relation column, x = Resolve.unknownColumn relation column := by
  rcases map_eq_ok.1 h with ⟨tables, _, hresult⟩
  cases hresult
  intro x hx
  rcases List.mem_flatMap.1 hx with ⟨resolved, hresolved, hx⟩
  rcases List.mem_map.1 hresolved with ⟨field, _, rfl⟩
  unfold Resolve.resolveField at hx
  split at hx
  · simp at hx
  · unfold Resolve.resolveColumn at hx
    simp only at hx
    split at hx
    · simp at hx
    · exact ⟨_, _, List.mem_singleton.1 hx⟩

/-- The contract of a statement is put together from its shape and what the shape resolves to. -/
theorem ofStatement_eq_ok {schema : Schema} {sql : String} {statement : Statement} {r : Contract}
    (h : ofStatement schema sql statement = .ok r) :
    ∃ found outputs findings, Shape.ofStatement sql statement = .ok found ∧
      Resolve.resolve schema found.shape = .ok (outputs, findings) ∧
      r = ⟨found.shape.kind, [], outputs, found.findings ++ findings⟩ := by
  obtain ⟨found, hfound, h⟩ := bind_eq_ok.1 h
  obtain ⟨⟨outputs, findings⟩, hresolved, hcontract⟩ := bind_eq_ok.1 h
  cases hcontract
  exact ⟨found, outputs, findings, mapError_eq_ok.1 hfound, mapError_eq_ok.1 hresolved, rfl⟩

/-- What is found about a statement is that a part of it was passed over or that a column of it is
not declared. -/
theorem skipped_or_unknownColumn {schema : Schema} {sql : String} {statement : Statement}
    {r : Contract} (h : ofStatement schema sql statement = .ok r) :
    ∀ x ∈ r.diagnostics, (∃ what text, x = Shape.skipped what text) ∨
      ∃ relation column, x = Resolve.unknownColumn relation column := by
  obtain ⟨found, outputs, findings, hshape, hresolve, rfl⟩ := ofStatement_eq_ok h
  intro x hx
  rcases List.mem_append.1 hx with hx | hx
  · exact .inl (skipped_of_shape hshape x hx)
  · exact .inr (unknownColumn_of_resolve hresolve x hx)

/-- What is found about one statement is never that there are more. -/
theorem code_of_ofStatement {schema : Schema} {sql : String} {statement : Statement} {r : Contract}
    (h : ofStatement schema sql statement = .ok r) :
    ∀ x ∈ r.diagnostics, x.code ≠ .sqlMultipleStatements := by
  intro x hx
  rcases skipped_or_unknownColumn h x hx with ⟨_, _, rfl⟩ | ⟨_, _, rfl⟩ <;>
    simp [Shape.skipped, Resolve.unknownColumn, Diagnostic.ofMessage]

/-! ## Both answers -/

section

variable {d : Dialect} {schema : Schema} {source : String} {file : Option Path}

/-- The contract of a file is that of its first statement, with the inputs of the whole body. -/
theorem analyze_eq_ok {c : Contract} (h : analyze d schema source file = .ok c) :
    ∃ first rest contract, bodyStatements d source file = .ok (first :: rest) ∧
      ofStatement schema (trimmed (FrontMatter.split source).body) first = .ok contract ∧
      c = { contract with
        inputs := Placeholder.inputs d (FrontMatter.split source).body
          (FrontMatter.split source).metadata
        diagnostics := contract.diagnostics ++
          if rest.isEmpty then [] else [ignored rest.length] } := by
  cases hbody : bodyStatements d source file with
  | error e =>
      rw [analyze_of_error hbody] at h
      cases h
  | ok all =>
      cases all with
      | nil =>
          rw [analyze_of_nil hbody] at h
          cases h
      | cons first rest =>
          rw [analyze_of_cons hbody] at h
          obtain ⟨found, hfound, rfl⟩ := map_eq_ok.1 h
          obtain ⟨contract, hcontract, rfl⟩ := map_eq_ok.1 hfound
          exact ⟨first, rest, contract, rfl, hcontract, rfl⟩

/-- Statements are taken only from a body that has some. -/
theorem exists_of_analyzeAll_eq_ok {rs : List Contract}
    (h : analyzeAll d schema source file = .ok rs) :
    ∃ first rest, bodyStatements d source file = .ok (first :: rest) ∧
      (first :: rest).mapM (contractOf d schema source) = .ok rs := by
  cases hbody : bodyStatements d source file with
  | error e =>
      rw [analyzeAll_of_error hbody] at h
      cases h
  | ok all =>
      cases all with
      | nil =>
          rw [analyzeAll_of_nil hbody] at h
          cases h
      | cons first rest =>
          rw [analyzeAll_of_cons hbody] at h
          exact ⟨first, rest, rfl, h⟩

/-- The contract of a body is the first of all, with a warning if there are others. -/
theorem analyze_of_analyzeAll {r : Contract} {rs : List Contract}
    (h : analyzeAll d schema source file = .ok (r :: rs)) :
    (∀ x ∈ r.diagnostics, x.code ≠ .sqlMultipleStatements) ∧
      analyze d schema source file = .ok { r with
        diagnostics := r.diagnostics ++ if rs.isEmpty then [] else [ignored rs.length] } := by
  rcases exists_of_analyzeAll_eq_ok h with ⟨first, rest, hbody, hall⟩
  rcases mapM_cons_eq_ok hall with ⟨r', rs', heq, hfirst, hrest⟩
  cases heq
  -- There are as many contracts as statements, so the warning counts the right number.
  have hlen := length_of_mapM_eq_ok hrest
  constructor
  · rcases map_eq_ok.1 hfirst with ⟨contract, hcontract, rfl⟩
    have hcodes := code_of_ofStatement hcontract
    exact hcodes
  · have hempty : rs.isEmpty = rest.isEmpty := by
      cases rs <;> cases rest <;> simp_all
    rw [analyze_of_cons hbody, hfirst, hlen, hempty]
    rfl

/-- What fails for the first statement fails for all. -/
theorem analyzeAll_of_analyze_eq_error {e : AnalysisError}
    (h : analyze d schema source file = .error e) : analyzeAll d schema source file = .error e := by
  cases hbody : bodyStatements d source file with
  | error e' =>
      rw [analyze_of_error hbody] at h
      cases h
      exact analyzeAll_of_error hbody
  | ok all =>
      cases all with
      | nil =>
          rw [analyze_of_nil hbody] at h
          cases h
          exact analyzeAll_of_nil hbody
      | cons first rest =>
          rw [analyze_of_cons hbody] at h
          rw [analyzeAll_of_cons hbody]
          exact mapM_cons_eq_error (map_eq_error.1 h)

/-- Where only the first statement has a contract, the failure of all is that of the earliest
statement after it that fails. -/
theorem exists_of_analyzeAll_eq_error {r : Contract} {e : AnalysisError}
    (h : analyze d schema source file = .ok r)
    (hall : analyzeAll d schema source file = .error e) :
    ∃ first before failing after,
      bodyStatements d source file = .ok (first :: (before ++ failing :: after)) ∧
      (∀ s ∈ first :: before, ∃ c,
        ofStatement schema (trimmed (FrontMatter.split source).body) s = .ok c) ∧
      ofStatement schema (trimmed (FrontMatter.split source).body) failing = .error e := by
  cases hbody : bodyStatements d source file with
  | error e' =>
      rw [analyze_of_error hbody] at h
      cases h
  | ok all =>
      cases all with
      | nil =>
          rw [analyze_of_nil hbody] at h
          cases h
      | cons first rest =>
          rw [analyze_of_cons hbody] at h
          rw [analyzeAll_of_cons hbody] at hall
          rcases map_eq_ok.1 h with ⟨c, hfirst, _⟩
          rcases exists_of_mapM_eq_error hall with ⟨before, failing, after, heq, hbefore, hfail⟩
          cases before with
          | nil =>
              -- The first statement has a contract, so it is not the one that fails.
              cases heq
              rw [hfirst] at hfail
              cases hfail
          | cons first' before =>
              cases heq
              refine ⟨first, before, failing, after, rfl, ?_, map_eq_error.1 hfail⟩
              intro s hs
              rcases hbefore s hs with ⟨_, hs⟩
              rcases map_eq_ok.1 hs with ⟨contract, hcontract, _⟩
              exact ⟨contract, hcontract⟩

end

/-- The answer about the first statement is told by the answer about all of them: it is the first of
their contracts, with a warning where there are more. Where the first statement fails so do all, and
where only others do, the earliest of them is named. -/
theorem analyze_analyzeAll_agree (d : Dialect) (schema : Schema) (source : String)
    (file : Option Path) :
    analyzeAll d schema source file ≠ .ok [] ∧
      (∀ r rs, analyzeAll d schema source file = .ok (r :: rs) →
        (rs = [] → analyze d schema source file = .ok r) ∧
        (rs ≠ [] → ∃ warning : Diagnostic,
          warning.code = .sqlMultipleStatements ∧ warning.severity = .warn ∧
          (∀ x ∈ r.diagnostics, x.code ≠ .sqlMultipleStatements) ∧
          analyze d schema source file =
            .ok { r with diagnostics := r.diagnostics ++ [warning] })) ∧
      (∀ e, analyze d schema source file = .error e →
        analyzeAll d schema source file = .error e) ∧
      (∀ r e, analyze d schema source file = .ok r → analyzeAll d schema source file = .error e →
        ∃ first before failing after,
          bodyStatements d source file = .ok (first :: (before ++ failing :: after)) ∧
          (∀ s ∈ first :: before, ∃ c,
            ofStatement schema (trimmed (FrontMatter.split source).body) s = .ok c) ∧
          ofStatement schema (trimmed (FrontMatter.split source).body) failing = .error e) := by
  refine ⟨?_, ?_, ?_, ?_⟩
  · intro h
    rcases exists_of_analyzeAll_eq_ok h with ⟨first, rest, _, hall⟩
    rcases mapM_cons_eq_ok hall with ⟨r, rs, heq, _⟩
    cases heq
  · intro r rs h
    rcases analyze_of_analyzeAll h with ⟨hcodes, hfirst⟩
    constructor
    · rintro rfl
      simpa using hfirst
    · intro hrs
      refine ⟨ignored rs.length, rfl, rfl, hcodes, ?_⟩
      simpa [hrs] using hfirst
  · intro e h
    exact analyzeAll_of_analyze_eq_error h
  · intro r e h hall
    exact exists_of_analyzeAll_eq_error h hall

end TypedSql.Analysis
