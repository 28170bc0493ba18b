import TypedSql.Proofs.Faithful.Expressions

namespace TypedSql.Grammar

/-! # Faithful table references

The readings of tables are faithful, where the readings they nest are: rows of values, arguments,
turned tables, joins and row patterns.
-/

section

variable {all : List Lexeme} {inner : Level} [inner.Faithful all]

/-! ## Row patterns -/

/-- A measure holds the placeholders of its expression. -/
@[simp] theorem faithful_measure : Faithful all (measure inner) := by
  unfold measure
  refine (Level.Faithful.expr _).bind fun e he => ?_
  refine .skip fun _ => .skip fun w => ?_
  simpa using he

/-- A symbol of a row pattern holds the placeholders of its condition. -/
@[simp] theorem faithful_patternSymbol :
    Faithful all (patternSymbol inner) := by
  unfold patternSymbol
  refine .skip fun symbol => .skip fun _ => ?_
  refine (Level.Faithful.expr _).bind fun e he => ?_
  simpa using he

/-- A row pattern holds the placeholders of its partition, its order, its measures and its
symbols. -/
@[simp] theorem faithful_rowMatches : Faithful all (rowMatches inner) := by
  unfold rowMatches
  refine .skip fun _ => ?_
  refine (faithful_afterAll? _ faithful_exprs).bind fun partition hpartition => ?_
  refine (faithful_afterAll? _ faithful_orderItems).bind fun order horder => ?_
  refine (faithful_after? _ (faithful_listedPieces faithful_measure)).bind
    fun measures hmeasures => ?_
  refine .skip fun rows => .skip fun following => .skip fun _ => .skip fun fuel => ?_
  refine .skip fun pattern => .skip fun _ => ?_
  refine (faithful_commaSeparated faithful_patternSymbol).bind fun symbols hsymbols => ?_
  refine .skip fun _ => ?_
  simp [hpartition, horder, hmeasures, hsymbols]

/-! ## Rows and arguments -/

/-- A row of values is read like its values. -/
@[simp] theorem faithful_row (mayBeEmpty : Bool) :
    Faithful all (row inner mayBeEmpty) := by
  unfold row
  refine .skip fun marked => .skip fun _ => ?_
  extract_lets afterValues
  have hafterValues : ∀ values, ReadFrom all values → Faithful all (afterValues values) := by
    intro values hvalues
    refine .skip fun _ => ?_
    simpa using hvalues
  exact .either (faithful_commaSeparatedOrNone _ (Level.Faithful.expr _))
    (faithful_commaSeparated (Level.Faithful.expr _)) hafterValues

/-- Rows of values are read like each of them. -/
@[simp] theorem faithful_rows (mayBeEmpty : Bool) :
    Faithful all (rows inner mayBeEmpty) := by
  unfold rows
  refine (faithful_commaSeparated (faithful_row _)).bind fun rows hrows => ?_
  extract_lets opening
  simp [hrows]

/-- A setting is a name with a constant. -/
@[simp] theorem faithful_settings : Faithful all settings := by
  have hsetting : Faithful all (do
      let w ← name
      expectSymbol .equal
      let value ← constant
      return ([.text (w.nameText ++ " = "), .expr (.literal value)] : List Piece)) :=
    .skip fun w => .skip fun _ => faithful_constant.bind fun value hvalue => by
      simpa using hvalue
  exact (faithful_commaSeparated hsetting).bind fun _ hentries => by simpa using hentries

/-- The arguments of a table function add up, by induction on those that may still come. -/
@[simp] theorem faithful_tableArguments (fuel : Nat) :
    ∀ {done : List (List Piece)}, ReadFrom all done →
      Faithful all (tableArguments inner fuel done) := by
  induction fuel with
  | zero =>
      intro done hdone
      simpa [tableArguments] using hdone
  | succ fuel ih =>
      intro done hdone
      unfold tableArguments
      refine .skip fun found => ?_
      split
      · refine .skip fun _ => ?_
        refine faithful_settings.bind fun pairs hpairs => ?_
        refine .skip fun _ => ?_
        extract_lets blank
        simp [hdone, hpairs]
      refine faithful_argument.bind fun pieces hpieces => ?_
      refine .skip fun found => ?_
      split
      · simp [ih, hdone, hpieces]
      · refine .skip fun _ => ?_
        simp [hdone, hpieces]

/-- A table without parentheses has no arguments, and so no placeholders in them. -/
@[simp] theorem faithful_tableArguments? :
    Faithful all (tableArguments? inner) := by
  unfold tableArguments?
  refine .skip fun found => ?_
  split
  · refine .skip fun found => ?_
    split
    · simp
    refine .skip fun fuel => ?_
    refine (faithful_tableArguments _ (by simp)).bind fun pieces hpieces => ?_
    simpa using hpieces
  · simp

/-! ## Turned tables -/

/-- A call that a table is turned by is read like a call. -/
@[simp] theorem faithful_spreadCall : Faithful all (spreadCall inner) := by
  unfold spreadCall
  refine .skip fun tableAlias => ?_
  extract_lets afterFunction
  have hafterFunction : ∀ function, Faithful all (afterFunction function) := by
    intro function
    refine (faithful_callPieces _).bind fun pieces hpieces => ?_
    refine .skip fun w? => ?_
    cases w? <;> simpa using hpieces
  split <;> exact .skip hafterFunction

/-- A name for an expression adds no placeholder. -/
@[simp] theorem faithful_aliasedExpr :
    Faithful all (aliasedExpr inner) := by
  unfold aliasedExpr
  refine (Level.Faithful.expr _).bind fun e he => ?_
  refine .skip fun w? => ?_
  cases w? <;> simpa using he

/-- A table is turned by an order, by a query or by named expressions. -/
@[simp] theorem faithful_spreadValues :
    Faithful all (spreadValues inner) := by
  unfold spreadValues
  refine .skip fun found => ?_
  split
  · refine (faithful_afterAll? _ faithful_orderItems).bind fun order horder => ?_
    simpa using horder
  refine .skip fun found => ?_
  split
  · refine Level.Faithful.query.bind fun q hq => ?_
    simpa using hq
  · exact faithful_listedPieces faithful_aliasedExpr

/-- A table with rows turned into columns keeps its placeholders, and adds those of the calls, of
the values and of the default. -/
@[simp] theorem faithful_pivot {t : TableFactor} (ht : ReadFrom all t) :
    Faithful all (pivot inner t) := by
  unfold pivot
  refine .skip fun _ => ?_
  refine (faithful_commaSeparated faithful_spreadCall).bind fun calls hcalls => ?_
  refine .skip fun _ => .skip fun column => .skip fun _ => ?_
  refine (faithful_parens faithful_spreadValues).bind fun values hvalues => ?_
  refine (faithful_afterAll? _ (faithful_parens (Level.Faithful.expr _))).bind
    fun otherwise hotherwise => ?_
  refine .skip fun _ => .skip fun tableAlias => ?_
  cases otherwise with
  | none => simp [ht, hcalls, hvalues]
  | some e =>
      have he : ReadFrom all e := by simpa using hotherwise
      simp [ht, hcalls, hvalues, he]

/-- A table with columns turned into rows adds no placeholder. -/
@[simp] theorem faithful_unpivot (inner : Level) {t : TableFactor} (ht : ReadFrom all t) :
    Faithful all (unpivot inner t) := by
  unfold unpivot
  refine .skip fun _ => .skip fun value => .skip fun _ => .skip fun label => ?_
  refine .skip fun _ => .skip fun columns => .skip fun _ => .skip fun tableAlias => ?_
  simpa using ht

/-- Turning a table again and again keeps the placeholders that it has, by induction on how often it
may be turned. -/
@[simp] theorem faithful_turned (fuel : Nat) :
    ∀ {t : TableFactor}, ReadFrom all t → Faithful all (turned inner fuel t) := by
  induction fuel with
  | zero =>
      intro t ht
      simpa [turned] using ht
  | succ fuel ih =>
      intro t ht
      unfold turned
      refine .skip fun found => ?_
      split
      · refine (faithful_pivot ht).bind fun t' ht' => ?_
        simp [ih, ht']
      refine .skip fun found => ?_
      split
      · refine (faithful_unpivot _ ht).bind fun t' ht' => ?_
        simp [ih, ht']
      · simpa using ht

/-! ## Tables of a kind of their own -/

/-- A table that is derived from a query is read like the query. -/
@[simp] theorem faithful_derived (opening : String) :
    Faithful all (derived inner opening) := by
  unfold derived
  refine Level.Faithful.query.bind fun q hq => ?_
  refine .skip fun _ => .skip fun tableAlias => ?_
  simpa using hq

/-- A lateral table is a query or a call of a function. -/
@[simp] theorem faithful_lateral : Faithful all (lateral inner) := by
  unfold lateral
  refine .skip fun found => ?_
  split
  · exact faithful_derived _
  refine .skip fun function => .skip fun _ => ?_
  refine (faithful_commaSeparatedOrNone _ faithful_argument).bind fun args hargs => ?_
  refine .skip fun _ => .skip fun tableAlias => ?_
  simpa using hargs

/-- A table made of arrays holds the placeholders of the arrays. -/
@[simp] theorem faithful_unnest : Faithful all (unnest inner) := by
  unfold unnest
  refine (faithful_parens faithful_exprs).bind fun arrays harrays => ?_
  refine .skip fun found => ?_
  extract_lets ordinality
  refine .skip fun tableAlias => .skip fun found => ?_
  extract_lets afterClosing
  have hafterClosing : ∀ closing, ReadFrom all closing → Faithful all (afterClosing closing) := by
    intro closing hclosing
    simp [afterClosing, harrays, hclosing]
  split
  · refine .skip fun found => ?_
    split
    · refine .skip fun w? => ?_
      cases w? <;> exact .bind (by simp) hafterClosing
    · exact .bind (by simp) hafterClosing
  · exact .bind (by simp) hafterClosing

/-- A table made of a document holds the placeholders of the document: its path and its columns are
written without any. -/
@[simp] theorem faithful_jsonTable : Faithful all (jsonTable inner) := by
  unfold jsonTable
  refine .skip fun _ => ?_
  refine (Level.Faithful.expr _).bind fun e he => ?_
  refine .skip fun _ => ?_
  refine faithful_constant.bind fun path hpath => ?_
  refine .skip fun _ => .skip fun fuel => .skip fun columns => .skip fun _ => ?_
  refine .skip fun tableAlias => ?_
  simpa using he

/-- A document that is opened as a table holds its own placeholders. -/
@[simp] theorem faithful_openedJson : Faithful all (openedJson inner) := by
  unfold openedJson
  refine .skip fun _ => ?_
  refine (Level.Faithful.expr _).bind fun e he => ?_
  refine .skip fun found => ?_
  extract_lets afterPath
  have hafterPath : ∀ path, Faithful all (afterPath path) := by
    intro path
    refine .skip fun _ => .skip fun found => ?_
    extract_lets afterColumns
    have hafterColumns : ∀ columns, Faithful all (afterColumns columns) := by
      intro columns
      refine .skip fun tableAlias => ?_
      simpa using he
    split
    · exact .skip fun columns => .skip hafterColumns
    · exact .skip hafterColumns
  split
  · exact faithful_constant.bind fun value hvalue => .skip hafterPath
  · exact .skip hafterPath

/-- A table with a name holds the placeholders of its arguments, its version, its hints and of the
patterns and turns after it. -/
@[simp] theorem faithful_namedTable :
    Faithful all (namedTable inner) := by
  unfold namedTable
  extract_lets d
  refine .skip fun names => .skip fun found => ?_
  extract_lets afterPartitions
  have hafterPartitions : ∀ partitions, Faithful all (afterPartitions partitions) := by
    intro partitions
    unfold afterPartitions
    extract_lets afterVersion
    have hafterVersion : ∀ version, ReadFrom all version → Faithful all (afterVersion version) := by
      intro version hversion
      refine faithful_tableArguments?.bind fun args hargs => ?_
      refine .skip fun ordinality => .skip fun tableAlias => ?_
      refine .skip fun found => .skip fun token? => ?_
      extract_lets afterHints
      have hafterHints : ∀ hints, ReadFrom all hints → Faithful all (afterHints hints) := by
        intro hints hhints
        unfold afterHints
        extract_lets closing
        have hclosing : ReadFrom all closing := by simp [closing, hversion, hhints]
        refine .skip fun fuel => ?_
        refine (faithful_turned _ (by simp [hargs, hclosing])).bind fun t ht => ?_
        refine .skip fun found => ?_
        split
        · refine .skip fun _ => ?_
          refine faithful_rowMatches.bind fun rowMatches hrowMatches => ?_
          refine .skip fun tableAlias => ?_
          simp [ht, hrowMatches]
        · simpa using ht
      split
      · exact .skip fun _ => (faithful_some (faithful_parens faithful_exprs)).bind hafterHints
      · exact .bind (by simp) hafterHints
    exact .either (faithful_afterAll? _ (Level.Faithful.expr _)) (by simp) hafterVersion
  split
  · exact .skip fun _ => .skip hafterPartitions
  · exact .skip hafterPartitions

/-! ## Joins -/

/-- A join holds the placeholders of its condition; columns that are joined by their names hold
none. -/
@[simp] theorem faithful_joinCondition (natural : Bool) :
    Faithful all (joinCondition inner natural) := by
  unfold joinCondition
  split
  · simp
  refine .skip fun found => ?_
  split
  · refine (Level.Faithful.expr _).bind fun e he => ?_
    simpa using he
  refine .skip fun found => ?_
  split
  · refine .skip fun names => ?_
    simp
  · simp

/-- A join adds the placeholders of its table and of its conditions. -/
@[simp] theorem faithful_join? {factor : Parse TableFactor}
    (hfactor : Faithful all factor) :
    Faithful all (join? inner factor) := by
  unfold join?
  refine .skip fun found => ?_
  extract_lets global
  refine .skip fun found => ?_
  split
  · refine .skip fun word? => ?_
    cases word? with
    | none => exact faithful_failHere _
    | some word =>
        refine hfactor.bind fun t ht => ?_
        simpa using ht
  refine .skip fun found => ?_
  split
  · refine .skip fun _ => ?_
    refine hfactor.bind fun t ht => ?_
    simpa using ht
  refine .skip fun found => ?_
  split
  · refine .skip fun _ => ?_
    refine hfactor.bind fun right hright => ?_
    refine .skip fun _ => ?_
    refine (faithful_parens (Level.Faithful.expr _)).bind fun condition hcondition => ?_
    refine (faithful_joinCondition _).bind fun rest hrest => ?_
    simp [hright, hcondition, hrest]
  refine .skip fun natural => .skip fun opening? => ?_
  cases opening? with
  | none => simp
  | some opening =>
      refine hfactor.bind fun right hright => ?_
      refine (faithful_joinCondition _).bind fun condition hcondition => ?_
      extract_lets words
      simp [hright, hcondition]

/-- Joined tables hold the placeholders of the first table and of each join. -/
@[simp] theorem faithful_joinedTables {factor : Parse TableFactor}
    (hfactor : Faithful all factor) :
    Faithful all (joinedTables inner factor) := by
  unfold joinedTables
  refine hfactor.bind fun first hfirst => ?_
  refine (faithful_many (faithful_join? hfactor)).bind fun rows hrows => ?_
  simp [hfirst, hrows]

/-- A name for a table changes no placeholder of it. -/
@[simp] theorem readFrom_underAlias (tableAlias : TableAlias) (t : TableFactor) :
    ReadFrom all (underAlias tableAlias t) ↔ ReadFrom all t := by
  cases t <;> simp [underAlias]

/-- The first of joined tables holds no placeholder that they do not hold. -/
@[simp] theorem readFrom_first {t : TableWithJoins} (ht : ReadFrom all t) :
    ReadFrom all t.first := by
  cases t
  simp_all [TableWithJoins.first]

/-- Tables in parentheses are a group of joined tables or one table under a name. -/
@[simp] theorem faithful_nestedTables {factor : Parse TableFactor}
    (hfactor : Faithful all factor) :
    Faithful all (nestedTables inner factor) := by
  unfold nestedTables
  extract_lets d
  refine (faithful_joinedTables hfactor).bind fun t ht => ?_
  extract_lets group
  split
  · refine .skip fun _ => .skip fun tableAlias => ?_
    simpa using ht
  split
  · refine .skip fun _ => .skip fun tableAlias => ?_
    split
    · simp
    · simp [ht]
    · simp [ht]
  · exact faithful_failHere _

/-- Tables are read faithfully however deep they nest in parentheses, by induction on how deep they
may. -/
@[simp] theorem faithful_tableFactor (fuel : Nat) :
    Faithful all (tableFactor inner fuel) := by
  induction fuel with
  | zero => simp [tableFactor]
  | succ fuel ih =>
      unfold tableFactor
      extract_lets d
      refine .skip fun found => ?_
      split
      · exact faithful_lateral
      refine .skip fun found => ?_
      split
      · refine (faithful_parens (Level.Faithful.expr _)).bind fun e he => ?_
        refine .skip fun tableAlias => ?_
        simpa using he
      refine .skip fun found => ?_
      split
      · refine (faithful_maybe (faithful_derived _)).bind fun read? hread? => ?_
        cases read? with
        | none => exact faithful_nestedTables ih
        | some read => exact .skip fun fuel => faithful_turned _ (by simpa using hread?)
      refine .skip fun token? => ?_
      extract_lets grouped
      refine .skip fun word => ?_
      split
      · refine .skip fun _ => ?_
        refine (faithful_rows _).bind fun pieces hpieces => ?_
        refine .skip fun tableAlias => ?_
        simpa using hpieces
      split
      · exact .skip fun _ => faithful_unnest
      split
      · exact .skip fun _ => faithful_jsonTable
      split
      · exact .skip fun _ => faithful_openedJson
      · exact faithful_namedTable

/-- The tables of a clause are read faithfully. -/
@[simp] theorem faithful_tableWithJoins :
    Faithful all (tableWithJoins inner) := by
  unfold tableWithJoins
  exact .skip fun fuel => faithful_joinedTables (faithful_tableFactor _)

end

end TypedSql.Grammar
