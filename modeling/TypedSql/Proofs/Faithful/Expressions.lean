import TypedSql.Proofs.Faithful.Steps

namespace TypedSql.Grammar

/-! # Faithful expressions

The readings of expressions are faithful, where the readings they nest are: calls, operands and
operators.
-/

section

variable {all : List Lexeme} {inner : Level} [inner.Faithful all]

/-! ## Intervals and collations -/

/-- The placeholders of an interval are those of its value: units and precisions hold none. -/
@[simp] theorem faithful_intervalOf {d : Dialect} {value : Expr} (hvalue : ReadFrom all value) :
    Faithful all (intervalOf d value) := by
  unfold intervalOf
  extract_lets -underBinder written
  refine .skip fun text => ?_
  extract_lets afterUnit
  have hafterUnit : ∀ unit, Faithful all (afterUnit unit) := by
    intro unit
    unfold afterUnit
    split
    · refine .skip fun text => ?_
      simp [hvalue, written]
    refine .skip fun precision => ?_
    extract_lets unit'
    refine .skip fun found => ?_
    split
    · refine .skip fun last => ?_
      extract_lets afterFraction
      have hafterFraction : ∀ fraction, Faithful all (afterFraction fraction) := by
        intro fraction
        simp [afterFraction, hvalue, written]
      split <;> exact .skip hafterFraction
    · simp [hvalue, written]
  split
  · exact .skip hafterUnit
  · split <;> exact .skip hafterUnit

/-- A collation after an expression adds no placeholder. -/
@[simp] theorem faithful_collated {d : Dialect} {e : Expr} (he : ReadFrom all e) :
    Faithful all (collated d e) := by
  unfold collated
  refine .skip fun found => ?_
  split
  · refine .skip fun collation => ?_
    simpa using he
  · simpa using he

/-! ## Calls -/

/-- A star holds no placeholder, and anything else in its place is an expression. -/
@[simp] theorem faithful_starred : Faithful all (starred inner) := by
  unfold starred
  refine .skip fun found => ?_
  split
  · simp
  refine .skip fun pieces? => ?_
  cases pieces? with
  | none =>
      refine (Level.Faithful.expr _).bind fun e he => ?_
      simpa using he
  | some pieces => simp

/-- An expression to order by holds its own placeholders and those of the bounds of its filling. -/
@[simp] theorem faithful_orderItem : Faithful all (orderItem inner) := by
  unfold orderItem
  refine (Level.Faithful.expr _).bind fun e he => ?_
  refine .skip fun word? => ?_
  extract_lets afterDirection
  have hafterDirection : ∀ direction, Faithful all (afterDirection direction) := by
    intro direction
    refine .skip fun found => .skip fun found => ?_
    extract_lets afterNulls
    have hafterNulls : ∀ nulls, Faithful all (afterNulls nulls) := by
      intro nulls
      refine .skip fun found => ?_
      extract_lets afterFilled
      have hafterFilled : ∀ filled, ReadFrom all filled → Faithful all (afterFilled filled) := by
        intro filled hfilled
        simp [afterFilled, he, hfilled]
      split
      · refine .skip fun _ => ?_
        refine (faithful_after? _ (Level.Faithful.expr _)).bind fun from? hfrom? => ?_
        refine (faithful_after? _ (Level.Faithful.expr _)).bind fun to? hto? => ?_
        refine (faithful_after? _ (Level.Faithful.expr _)).bind fun step? hstep? => ?_
        exact .bind (by simp [hfrom?, hto?, hstep?]) hafterFilled
      · exact .bind (by simp) hafterFilled
    split
    · exact .skip hafterNulls
    · split <;> exact .skip hafterNulls
  cases word? <;> exact .skip hafterDirection

/-- The placeholders of a row to order by are those of its expressions. -/
@[simp] theorem faithful_orderItems : Faithful all (orderItems inner) :=
  faithful_listedPieces faithful_orderItem

/-- The placeholders of a row of expressions are those of the expressions. -/
@[simp] theorem faithful_exprs : Faithful all (exprs inner) :=
  faithful_map (by simp) fun _ hes => by simpa using hes

/-- The distance of a frame bound is a word, an interval or an expression. -/
@[simp] theorem faithful_frameBound : Faithful all (frameBound inner) := by
  unfold frameBound
  refine .skip fun found => ?_
  split
  · simp
  refine .skip fun found => ?_
  extract_lets -underBinder afterDistance
  have hafterDistance : ∀ distance, ReadFrom all distance →
      Faithful all (afterDistance distance) := by
    intro distance hdistance
    refine .skip fun word? => ?_
    cases word? with
    | none => exact faithful_failHere _
    | some word => simpa using hdistance
  split
  · exact .bind (by simp) hafterDistance
  refine .skip fun token? => ?_
  split
  · extract_lets afterValue
    have hafterValue : ∀ value, ReadFrom all value → Faithful all (afterValue value) := by
      intro value hvalue
      refine (faithful_intervalOf hvalue).bind fun e he => ?_
      exact .bind (by simpa using he) hafterDistance
    split
    · exact (Level.Faithful.expr _).bind hafterValue
    · exact .skip fun _ => (faithful_collated (by simp)).bind hafterValue
  · exact (Level.Faithful.expr _).bind fun e he => .bind (by simpa using he) hafterDistance

/-- The placeholders of a frame are those of its one bound or of its two bounds. -/
@[simp] theorem faithful_windowFrame :
    Faithful all (windowFrame inner) := by
  unfold windowFrame
  refine .skip fun word? => ?_
  extract_lets afterUnits
  have hafterUnits : ∀ units, Faithful all (afterUnits units) := by
    intro units
    refine .skip fun found => ?_
    split
    · refine faithful_frameBound.bind fun first hfirst => ?_
      refine .skip fun _ => ?_
      refine faithful_frameBound.bind fun last hlast => ?_
      simp [hfirst, hlast]
    · refine faithful_frameBound.bind fun pieces hpieces => ?_
      simpa using hpieces
  cases word? <;> exact .skip hafterUnits

/-- A window holds the placeholders of its partition, of its order and of its frame, whatever blanks
are written between them. -/
@[simp] theorem faithful_windowSpec : Faithful all (windowSpec inner) := by
  have hblanks {parts : List (List Piece)} (hparts : ReadFrom all parts) :
      ReadFrom all (parts.map fun part => part ++ [.text " "]).flatten := by
    rw [readFrom_flatten]
    exact readFrom_map hparts fun part hpart => by simp [hpart]
  unfold windowSpec
  refine .skip fun token? => ?_
  extract_lets afterBase
  have hafterBase : ∀ base, ReadFrom all base → Faithful all (afterBase base) := by
    intro base hbase
    refine (faithful_afterAll? _ faithful_exprs).bind fun partition hpartition => ?_
    refine (faithful_afterAll? _ faithful_orderItems).bind fun order horder => ?_
    refine .skip fun found => ?_
    extract_lets afterFrame
    have hafterFrame : ∀ frame, ReadFrom all frame → Faithful all (afterFrame frame) := by
      intro frame hframe
      unfold afterFrame
      extract_lets parts filled
      have hparts : ReadFrom all parts := by simp [parts, hbase, hpartition, horder, hframe]
      have hfilled : ReadFrom all filled := readFrom_filter _ hparts
      exact faithful_pure.2 (readFrom_dropLast (hblanks hfilled))
    split
    · exact .bind (by simp) hafterFrame
    · refine faithful_windowFrame.bind fun frame hframe => ?_
      exact .skip fun _ => .bind (by simpa using hframe) hafterFrame
  split
  · split
    · exact .bind (by simp) hafterBase
    · exact .skip fun _ => .bind (by simp) hafterBase
  · exact .bind (by simp) hafterBase

/-- The name of an argument is an expression in some dialects and a word in the others. -/
@[simp] theorem faithful_argumentName :
    Faithful all (argumentName inner) := by
  unfold argumentName
  split
  · refine (Level.Faithful.expr _).bind fun e he => ?_
    simpa using he
  · refine .skip fun w => ?_
    simp

/-- An argument with a name holds the placeholders of the name and of the value. -/
@[simp] theorem faithful_namedArgument :
    Faithful all (namedArgument inner) := by
  unfold namedArgument
  refine faithful_argumentName.bind fun label hlabel => ?_
  refine .skip fun sign => ?_
  refine faithful_starred.bind fun value hvalue => ?_
  simp [hlabel, hvalue]

/-- An argument is one with a name, or an expression that may be a star. -/
@[simp] theorem faithful_argument : Faithful all (argument inner) := by
  unfold argument
  refine (faithful_maybe faithful_namedArgument).bind fun read? hread? => ?_
  cases read? with
  | none =>
      refine faithful_starred.bind fun value hvalue => ?_
      simpa using hvalue
  | some read => simpa using hread?

@[simp] theorem faithful_nullClause? : Faithful all (nullClause?) := by
  unfold nullClause?
  refine .skip fun found => ?_
  split
  · simp
  · refine .skip fun found => ?_
    split <;> simp

/-- What is done on overflow holds at most the placeholders of the filler. -/
@[simp] theorem faithful_onOverflow? :
    Faithful all (onOverflow? inner) := by
  unfold onOverflow?
  refine .skip fun found => ?_
  split
  · refine .skip fun found => ?_
    split
    · simp
    refine .skip fun _ => .skip fun token? => ?_
    extract_lets afterFiller
    have hafterFiller : ∀ filler, ReadFrom all filler → Faithful all (afterFiller filler) := by
      intro filler hfiller
      refine .skip fun word? => ?_
      extract_lets afterCounted
      have hafterCounted : ∀ counted, Faithful all (afterCounted counted) := by
        intro counted
        refine .skip fun _ => ?_
        simpa using hfiller
      cases word? <;> exact .skip hafterCounted
    split
    · split
      · exact .bind (by simp) hafterFiller
      · exact (faithful_failHere _).bind hafterFiller
    -- A string of any of the five kinds is the start of an expression.
    iterate 5
      · exact (Level.Faithful.expr _).bind fun e he => .bind (by simpa using he) hafterFiller
    · exact (faithful_failHere _).bind hafterFiller
  · simp

/-- The clauses at the end of arguments hold the placeholders of their orders, limits, bounds and
separators. -/
@[simp] theorem faithful_argumentClauses :
    Faithful all (argumentClauses inner) := by
  have hextreme : Faithful all (after? "HAVING" do
      let kind ← expectOneOf ["MIN", "MAX"]
      return ([.text ("HAVING " ++ kind ++ " "), .expr (← inner.expr 0)] : List Piece)) :=
    faithful_after? _ (.skip fun kind => by simp)
  unfold argumentClauses
  extract_lets d afterNulls
  have hafterNulls : ∀ nulls, Faithful all (afterNulls nulls) := by
    intro nulls
    refine (faithful_afterAll? _ faithful_orderItems).bind fun order horder => ?_
    refine (faithful_after? _ (Level.Faithful.expr _)).bind fun limit hlimit => ?_
    extract_lets afterHaving
    have hafterHaving : ∀ having, ReadFrom all having → Faithful all (afterHaving having) := by
      intro having hhaving
      unfold afterHaving
      extract_lets afterSeparator
      have hafterSeparator : ∀ separator, ReadFrom all separator →
          Faithful all (afterSeparator separator) := by
        intro separator hseparator
        refine faithful_onOverflow?.bind fun overflow hoverflow => ?_
        refine faithful_nullClause?.bind fun jsonNulls hjsonNulls => ?_
        extract_lets clauses
        have hclauses : ReadFrom all clauses := by
          simp [clauses, horder, hlimit, hhaving, hseparator, hoverflow, hjsonNulls]
        simp [hclauses]
      exact .either (faithful_after? _ faithful_constant) (by simp) hafterSeparator
    exact .either hextreme (by simp) hafterHaving
  split <;> exact .skip hafterNulls

/-- The placeholders of arguments are those of each argument and of the clauses after them. -/
@[simp] theorem faithful_arguments : Faithful all (arguments inner) := by
  unfold arguments
  refine faithful_nullClause?.bind fun first hfirst => ?_
  refine .skip fun found => ?_
  split
  · simp [hfirst]
  refine .skip fun duplicates => ?_
  refine (faithful_commaSeparated faithful_argument).bind fun args hargs => ?_
  refine faithful_argumentClauses.bind fun others hothers => ?_
  refine .skip fun _ => ?_
  extract_lets clauses blank
  have hclauses : ReadFrom all clauses := by simp [clauses, hfirst, hothers]
  simp [hargs, hclauses]

/-- A filter after a call holds the placeholders of its condition. -/
@[simp] theorem faithful_filter? : Faithful all (filter? inner) := by
  unfold filter?
  extract_lets d
  split
  · refine .skip fun found => ?_
    split
    · refine .skip fun found => ?_
      split
      · refine .skip fun found => ?_
        split
        · refine (Level.Faithful.expr _).bind fun condition hcondition => ?_
          refine .skip fun _ => ?_
          simpa using hcondition
        · simp
      · simp
    · simp
  · simp

/-- What a call ranges over is a window or the name of one. -/
@[simp] theorem faithful_over? : Faithful all (over? inner) := by
  unfold over?
  refine .skip fun found => ?_
  split
  · refine .skip fun found => ?_
    split
    · refine faithful_windowSpec.bind fun pieces hpieces => ?_
      simpa using hpieces
    · refine .skip fun w => ?_
      simp
  · simp

/-- A call holds the placeholders of its arguments, of both rows where there are two, and of its
clauses. -/
@[simp] theorem faithful_callPieces (function : List Word) :
    Faithful all (callPieces inner function) := by
  have hgroup : Faithful all (afterAll? ["WITHIN", "GROUP"] do
      expectSymbol .leftParen
      expectKeywords ["ORDER", "BY"]
      let order ← orderItems inner
      expectSymbol .rightParen
      return order) := by
    refine faithful_afterAll? _ (.skip fun _ => .skip fun _ => ?_)
    exact faithful_orderItems.bind fun order horder => .skip fun _ => by simpa using horder
  unfold callPieces
  refine .skip fun _ => ?_
  refine faithful_arguments.bind fun first hfirst => ?_
  refine .skip fun found => ?_
  extract_lets rest
  have hrest : ∀ args, ReadFrom all args → Faithful all (rest args) := by
    intro args hargs
    refine hgroup.bind fun within hwithin => ?_
    refine faithful_filter?.bind fun filtered hfiltered => ?_
    extract_lets afterNulls
    have hafterNulls : ∀ nulls, Faithful all (afterNulls nulls) := by
      intro nulls
      refine faithful_over?.bind fun window hwindow => ?_
      simp [hargs, hwithin, hfiltered, hwindow]
    split <;> exact .skip hafterNulls
  split
  · refine .skip fun _ => ?_
    exact faithful_arguments.bind fun args hargs => .bind (by simp [hfirst, hargs]) hrest
  · exact .bind (by simpa using hfirst) hrest

/-- A call is read like its pieces. -/
@[simp] theorem faithful_call (function : List Word) :
    Faithful all (call inner function) :=
  faithful_map (by simp) fun _ hpieces => by simpa using hpieces

/-! ## Operands -/

/-- Each condition of a case adds its placeholders and those of its result, by induction on the
conditions that may still come. -/
@[simp] theorem faithful_cases (fuel : Nat) :
    ∀ {done : List Piece}, ReadFrom all done → Faithful all (cases inner fuel done) := by
  induction fuel with
  | zero =>
      intro done hdone
      simpa [cases] using hdone
  | succ fuel ih =>
      intro done hdone
      unfold cases
      refine (Level.Faithful.expr _).bind fun condition hcondition => .skip fun _ => ?_
      refine (Level.Faithful.expr _).bind fun result hresult => .skip fun found => ?_
      split
      · exact ih (by simp [hdone, hcondition, hresult])
      · simp [hdone, hcondition, hresult]

/-- A case holds the placeholders of its operand, of its conditions with their results, and of what
holds otherwise. -/
@[simp] theorem faithful_caseForm : Faithful all (caseForm inner) := by
  unfold caseForm
  refine .skip fun found => ?_
  extract_lets afterOperand
  have hafterOperand : ∀ operand, ReadFrom all operand → Faithful all (afterOperand operand) := by
    intro operand hoperand
    refine .skip fun fuel => ?_
    refine (faithful_cases _ (by simp)).bind fun rows hrows => ?_
    refine (faithful_after? _ (Level.Faithful.expr _)).bind fun otherwise hotherwise => ?_
    refine .skip fun _ => ?_
    simp [hoperand, hrows, hotherwise]
  split
  · exact .bind (by simp) hafterOperand
  · refine (Level.Faithful.expr _).bind fun e he => ?_
    exact .skip fun _ => .bind (by simpa using he) hafterOperand

/-- A conversion holds the placeholders of its operand: types and character sets are names. -/
@[simp] theorem faithful_convertForm (opening : String) :
    Faithful all (convertForm inner opening) := by
  unfold convertForm
  extract_lets d
  refine .skip fun _ => ?_
  refine (Level.Faithful.expr _).bind fun e he => ?_
  refine .skip fun found => ?_
  split
  · refine .skip fun charset => .skip fun _ => ?_
    simpa using he
  · refine .skip fun _ => .skip fun type => .skip fun charset => .skip fun _ => ?_
    simpa using he

/-- A cast holds the placeholders of its operand and those of its format. -/
@[simp] theorem faithful_castForm (opening : String) :
    Faithful all (castForm inner opening) := by
  have hformat : Faithful all (after? "FORMAT" do
      let value ← constant
      let zone ← afterAll? ["AT", "TIME", "ZONE"] constant
      return ([.expr (.literal value)] ++ optionalExpr " AT TIME ZONE " (zone.map .literal) :
        List Piece)) :=
    faithful_after? _ (faithful_constant.bind fun value hvalue =>
      (faithful_afterAll? _ faithful_constant).bind fun zone hzone => by simp [hvalue, hzone])
  unfold castForm
  refine .skip fun _ => ?_
  refine (Level.Faithful.expr _).bind fun e he => ?_
  refine .skip fun _ => .skip fun type => ?_
  refine hformat.bind fun format hformat => ?_
  refine .skip fun _ => ?_
  simp [he, hformat]

/-- A test whether there are rows is read like its query. -/
@[simp] theorem faithful_existsForm (opening : String) :
    Faithful all (existsForm inner opening) := by
  unfold existsForm
  refine (faithful_parens Level.Faithful.query).bind fun q hq => ?_
  simpa using hq

/-- A field that is taken out of a time holds the placeholders of the time. -/
@[simp] theorem faithful_extractForm :
    Faithful all (extractForm inner) := by
  unfold extractForm
  extract_lets d
  refine .skip fun _ => .skip fun field => .skip fun found => .skip fun found => ?_
  extract_lets afterSign
  have hafterSign : ∀ sign, Faithful all (afterSign sign) := by
    intro sign
    refine (Level.Faithful.expr _).bind fun e he => ?_
    refine .skip fun _ => ?_
    simpa using he
  split
  · exact .skip hafterSign
  split
  · exact .skip fun _ => .skip hafterSign
  · exact .skip hafterSign

/-- A number that is rounded holds its own placeholders; to which field or scale is not written with
any. -/
@[simp] theorem faithful_roundForm (opening : String) :
    Faithful all (roundForm inner opening) := by
  unfold roundForm
  refine .skip fun _ => ?_
  refine (Level.Faithful.expr _).bind fun e he => ?_
  refine .skip fun found => .skip fun found => ?_
  extract_lets afterRest
  have hafterRest : ∀ rest, Faithful all (afterRest rest) := by
    intro rest
    refine .skip fun _ => ?_
    simpa using he
  split
  · exact .skip fun text => .skip hafterRest
  split
  · refine faithful_constant.bind fun value hvalue => ?_
    split <;> exact .skip hafterRest
  · exact .skip hafterRest

/-- A search for a position holds the placeholders of what is looked for and of where. -/
@[simp] theorem faithful_positionForm :
    Faithful all (positionForm inner) := by
  unfold positionForm
  refine .skip fun _ => ?_
  refine (Level.Faithful.expr _).bind fun e he => ?_
  refine .skip fun _ => ?_
  refine (Level.Faithful.expr _).bind fun whole hwhole => ?_
  refine .skip fun _ => ?_
  simp [he, hwhole]

/-- A part of a string holds the placeholders of the string, of its start and of its length. -/
@[simp] theorem faithful_substringForm :
    Faithful all (substringForm inner) := by
  unfold substringForm
  refine .skip fun _ => ?_
  refine (Level.Faithful.expr _).bind fun e he => ?_
  refine .skip fun commas => ?_
  extract_lets afterStart
  have hafterStart : ∀ start, ReadFrom all start → Faithful all (afterStart start) := by
    intro start hstart
    refine .skip fun found => .skip fun found => ?_
    extract_lets afterLength
    have hafterLength : ∀ length, ReadFrom all length → Faithful all (afterLength length) := by
      intro length hlength
      refine .skip fun _ => ?_
      simp [he, hstart, hlength]
    split
    · exact (faithful_some (Level.Faithful.expr _)).bind hafterLength
    · exact .either (faithful_some (Level.Faithful.expr _)) (by simp) hafterLength
  exact .either (faithful_some (Level.Faithful.expr _))
    (faithful_after? _ (Level.Faithful.expr _)) hafterStart

/-- An overlay holds the placeholders of the string, of the part put over it, of its start and
length. -/
@[simp] theorem faithful_overlayForm :
    Faithful all (overlayForm inner) := by
  unfold overlayForm
  refine .skip fun _ => ?_
  refine (Level.Faithful.expr _).bind fun e he => ?_
  refine .skip fun _ => ?_
  refine (Level.Faithful.expr _).bind fun part hpart => ?_
  refine .skip fun _ => ?_
  refine (Level.Faithful.expr _).bind fun start hstart => ?_
  refine (faithful_after? _ (Level.Faithful.expr _)).bind fun length hlength => ?_
  refine .skip fun _ => ?_
  simp [he, hpart, hstart, hlength]

/-- A trimmed string holds its own placeholders and those of the characters that are taken off. -/
@[simp] theorem faithful_trimForm : Faithful all (trimForm inner) := by
  unfold trimForm
  extract_lets -underBinder d
  refine .skip fun _ => .skip fun word? => ?_
  extract_lets afterSide
  have hafterSide : ∀ side, Faithful all (afterSide side) := by
    intro side
    refine (Level.Faithful.expr _).bind fun e he => ?_
    refine .skip fun found => ?_
    split
    · refine (Level.Faithful.expr _).bind fun whole hwhole => ?_
      refine .skip fun _ => ?_
      simp [he, hwhole]
    refine .skip fun found => ?_
    split
    · refine faithful_exprs.bind fun characters hcharacters => ?_
      refine .skip fun _ => ?_
      simp [he, hcharacters]
    · refine .skip fun _ => ?_
      simpa using he
  cases word? <;> exact .skip hafterSide

/-- A search in columns holds the placeholder that it may look for. -/
@[simp] theorem faithful_matchForm : Faithful all (matchForm) := by
  unfold matchForm
  refine .skip fun columns => .skip fun _ => .skip fun _ => ?_
  refine faithful_constant.bind fun value hvalue => ?_
  refine .skip fun found => .skip fun found => .skip fun found => ?_
  extract_lets afterMode
  have hafterMode : ∀ mode, Faithful all (afterMode mode) := by
    intro mode
    refine .skip fun _ => ?_
    simpa using hvalue
  split
  · refine .skip fun found => ?_
    split <;> exact .skip hafterMode
  split
  · exact .skip hafterMode
  · split <;> exact .skip hafterMode

/-- A value of a row may have a name, which holds no placeholder. -/
@[simp] theorem faithful_rowValue (typed : Bool) :
    Faithful all (rowValue inner typed) := by
  unfold rowValue
  refine (Level.Faithful.expr _).bind fun e he => ?_
  refine .skip fun position => .skip fun found => ?_
  split
  · split
    · simp
    · refine .skip fun w => ?_
      simpa using he
  · simpa using he

/-- A typed row holds the placeholders of its values: its fields are names with types. -/
@[simp] theorem faithful_rowForm (position : Option Position) :
    Faithful all (rowForm inner position) := by
  unfold rowForm
  refine .skip fun fuel => .skip fun fields => ?_
  dsimp only
  split
  · refine .skip fun _ => ?_
    refine (faithful_parens (faithful_commaSeparated (faithful_rowValue _))).bind
      fun values hvalues => ?_
    simpa using hvalues
  · refine (faithful_parens (faithful_commaSeparated (faithful_rowValue _))).bind
      fun values hvalues => ?_
    simpa using hvalues

/-- The placeholders of an array are those of its elements. -/
@[simp] theorem faithful_arrayForm (opening : String) :
    Faithful all (arrayForm inner opening) := by
  unfold arrayForm
  refine (faithful_commaSeparatedOrNone _ (Level.Faithful.expr _)).bind fun elements helements => ?_
  refine .skip fun _ => ?_
  simpa using helements

/-- An entry of a map holds the placeholders of its key and of its value. -/
@[simp] theorem faithful_mapEntry
    {α : Type} [HasLiterals α] {key : Parse α} {text : α → Piece} (hkey : Faithful all key)
    (htext : ∀ k, ReadFrom all k → ReadFrom all (text k)) :
    Faithful all (mapEntry inner key text) := by
  unfold mapEntry
  refine hkey.bind fun k hk => ?_
  refine .skip fun _ => ?_
  refine (Level.Faithful.expr _).bind fun e he => ?_
  simp [htext, hk, he]

/-- The placeholders of a map are those of its entries. -/
@[simp] theorem faithful_mapForm (opening : String) {entries : Parse (List (List Piece))}
    (hentries : Faithful all entries) :
    Faithful all (mapForm opening entries) := by
  unfold mapForm
  refine .skip fun _ => ?_
  refine hentries.bind fun rows hrows => ?_
  refine .skip fun _ => ?_
  simpa using hrows

/-- A negation is read like what it negates. -/
@[simp] theorem faithful_notForm : Faithful all (notForm inner) := by
  unfold notForm
  refine .skip fun found => ?_
  split
  · exact faithful_existsForm _
  · refine (Level.Faithful.expr _).bind fun e he => ?_
    simpa using he

/-- An interval after its keyword is read from an expression or an operand. -/
@[simp] theorem faithful_intervalForm {operand : Parse Expr}
    (hoperand : Faithful all operand) :
    Faithful all (intervalForm inner operand) := by
  unfold intervalForm
  extract_lets afterValue
  have hafterValue : ∀ value, ReadFrom all value → Faithful all (afterValue value) := by
    intro value hvalue
    exact faithful_intervalOf hvalue
  exact .either (Level.Faithful.expr _) hoperand hafterValue

/-- A keyword starts an operand of a form of its own, or none, and every form is read faithfully. -/
@[simp] theorem faithful_keywordOperand {operand : Parse Expr} (w : Word)
    (position : Option Position) (hoperand : Faithful all operand) :
    Faithful all (keywordOperand inner operand w position) := by
  have hmap : Faithful all (mapForm "MAP \x7b"
      (commaSeparatedOrNone (mapEntry inner (inner.expr 0) .expr) .rightBrace)) :=
    faithful_mapForm _ (by simp)
  unfold keywordOperand
  extract_lets d
  split
  -- The constants that are words, the users, and the times, which may be called.
  iterate 3
    · simp
  iterate 4
    · split <;> simp
  iterate 5
    · refine .skip fun found => ?_
      split
      · refine faithful_arguments.bind fun args hargs => ?_
        simpa using hargs
      · simp
  · exact faithful_some faithful_caseForm
  · exact faithful_some (faithful_convertForm _)
  · split
    · exact faithful_some (faithful_convertForm _)
    · simp
  iterate 3
    · exact faithful_some (faithful_castForm _)
  · exact faithful_some (faithful_existsForm _)
  · exact faithful_some faithful_extractForm
  · exact faithful_some (faithful_roundForm _)
  · exact faithful_some (faithful_roundForm _)
  · refine .skip fun found => ?_
    split
    · refine (faithful_maybe faithful_positionForm).bind fun read? hread? => ?_
      cases read? with
      | none => exact faithful_some (faithful_call _)
      | some read => simpa using hread?
    · simp
  · exact faithful_some faithful_substringForm
  · exact faithful_some faithful_overlayForm
  · exact faithful_some faithful_trimForm
  · exact faithful_some (faithful_intervalForm hoperand)
  · refine .skip fun found => ?_
    split
    · exact faithful_some (faithful_arrayForm _)
    refine .skip fun found => ?_
    split
    · refine (faithful_parens Level.Faithful.query).bind fun q hq => ?_
      simpa using hq
    · simp
  · exact faithful_some faithful_notForm
  · split
    · exact faithful_some faithful_matchForm
    · simp
  · split
    · exact faithful_some (faithful_rowForm _)
    · simp
  · refine .skip fun found => ?_
    split
    · exact faithful_some hmap
    · simp
  · split
    · refine (Level.Faithful.expr _).bind fun e he => ?_
      simpa using he
    · simp
  · simp

/-- A dotted name may end in the arguments of a call, by induction on the names that may still
come. -/
@[simp] theorem faithful_dottedOperand (fuel : Nat) :
    ∀ done : List Word, Faithful all (dottedOperand inner fuel done) := by
  induction fuel with
  | zero => simp [dottedOperand]
  | succ fuel ih =>
      intro done
      unfold dottedOperand
      refine .skip fun found => ?_
      split
      · refine .skip fun found => ?_
        split
        · simp [ih]
        · simp [ih]
        · split
          · simp
          · exact faithful_unexpected _ _
        · exact faithful_unexpected _ _
      refine .skip fun found => ?_
      split
      · exact faithful_call _
      · simp

/-- A name is a column, a dotted name, a call, or the mark of a string. -/
@[simp] theorem faithful_nameOperand (w : Word) :
    Faithful all (nameOperand inner w) := by
  unfold nameOperand
  refine .skip fun token? => ?_
  split
  · exact faithful_call _
  · exact .skip fun a => faithful_dottedOperand _ _
  · extract_lets introduced
    split
    · refine .skip fun _ => ?_
      simp
    · simp
  · simp

/-- A word is read as its keyword says, and as a name where that fails. -/
@[simp] theorem faithful_wordOperand {operand : Parse Expr} (w : Word)
    (position : Option Position) (hoperand : Faithful all operand) :
    Faithful all (wordOperand inner operand w position) := by
  unfold wordOperand
  have hkeyword : Faithful all (restored (keywordOperand inner operand w position)) :=
    faithful_restored (faithful_keywordOperand w position hoperand)
  have hmeant := faithful_map (f := Except.ok (ε := SyntaxError)) hkeyword fun e? he? => by
    simpa using he?
  refine (faithful_tryCatch hmeant fun failure => by simp).bind fun meaning hmeaning => ?_
  split
  · exact faithful_collated (by simpa using hmeaning)
  · exact (faithful_nameOperand w).bind fun _ he => faithful_collated he
  split
  · simp
  refine (faithful_attempt (faithful_restored (faithful_nameOperand w))).bind fun e? he? => ?_
  cases e? with
  | none => simp
  | some e => simpa using he?

/-- A constant with its type before it is an interval or holds no placeholder. -/
@[simp] theorem faithful_typedConstant {operand : Parse Expr}
    (hoperand : Faithful all operand) :
    Faithful all (typedConstant inner operand) := by
  unfold typedConstant
  extract_lets d
  refine .skip fun type => ?_
  cases type with
  | interval => exact faithful_intervalForm hoperand
  | custom type => exact faithful_failHere _
  | known type =>
      refine .skip fun content => ?_
      simp

/-- In parentheses stand a query, one expression or a row of them. -/
@[simp] theorem faithful_parenthesized :
    Faithful all (parenthesized inner) := by
  unfold parenthesized
  refine .skip fun found => ?_
  split
  · refine Level.Faithful.query.bind fun q hq => ?_
    refine .skip fun _ => ?_
    simpa using hq
  refine (faithful_commaSeparated (Level.Faithful.expr _)).bind fun es hes => ?_
  refine .skip fun _ => ?_
  cases es with
  | nil => simp
  | cons e es =>
      split
      · simp_all
      · simpa using hes

/-- The name of a field after an operand adds no placeholder. -/
@[simp] theorem faithful_fieldOf {e : Expr} (he : ReadFrom all e) : Faithful all (fieldOf e) := by
  unfold fieldOf
  refine .skip fun found => ?_
  split
  · refine .skip fun found => ?_
    split
    · simpa using he
    · simp
    · simp
  · simpa using he

/-- In braces stand a call or the entries of a map. -/
@[simp] theorem faithful_braced : Faithful all (braced inner) := by
  have hdriver : Faithful all (do
      expectSymbol .leftBrace
      expectKeyword "FN"
      let function ← objectNameIn inner.dialect
      callPieces inner function) :=
    .skip fun _ => .skip fun _ => .skip fun function => faithful_callPieces _
  have hmap : Faithful all (mapForm "\x7b"
      (commaSeparated (mapEntry inner name fun w => .text w.nameText))) :=
    faithful_mapForm _ (by simp)
  unfold braced
  refine (faithful_maybe hdriver).bind fun pieces? hpieces? => ?_
  split
  · refine .skip fun _ => ?_
    simpa using hpieces?
  split
  · exact hmap
  · simp

/-- A symbol starts an operand with a sign, an array, a group, braces or a placeholder. -/
@[simp] theorem faithful_symbolOperand (s : Symbol) :
    Faithful all (symbolOperand inner s) := by
  unfold symbolOperand
  extract_lets d
  split
  · refine .skip fun _ => ?_
    refine (Level.Faithful.expr _).bind fun e he => ?_
    simpa using he
  split
  · exact .skip fun _ => faithful_arrayForm _
  · exact .skip fun _ => faithful_parenthesized.bind fun e he => faithful_fieldOf he
  · exact faithful_braced
  · exact faithful_map faithful_constant fun _ h => h
  · exact faithful_map faithful_constant fun _ h => h
  · exact faithful_failNext _

/-- An operand starts with a word, with a symbol, or is a constant. -/
@[simp] theorem faithful_plainOperand {operand : Parse Expr}
    (hoperand : Faithful all operand) :
    Faithful all (plainOperand inner operand) := by
  have hconstant : Faithful all (Expr.literal <$> constant >>= collated inner.dialect) := by
    have hliteral : Faithful all (Expr.literal <$> constant) :=
      faithful_map faithful_constant fun _ h => h
    exact hliteral.bind fun _ he => faithful_collated he
  unfold plainOperand
  extract_lets d
  refine .skip fun found => ?_
  split
  · exact .skip fun _ => faithful_wordOperand _ _ hoperand
  · exact (faithful_symbolOperand _).bind fun _ he => faithful_collated he
  · split
    · exact hconstant
    · exact faithful_failNext _
  iterate 4
    · exact hconstant
  · exact faithful_failNext _

/-- Operands are read faithfully however deep they nest, by induction on how deep they may. -/
@[simp] theorem faithful_operand (fuel : Nat) :
    Faithful all (operand inner fuel) := by
  induction fuel with
  | zero => simp [operand]
  | succ fuel ih =>
      unfold operand
      refine (faithful_maybe (faithful_typedConstant ih)).bind fun e? he? => ?_
      cases e? with
      | none => exact faithful_plainOperand ih
      | some e => simpa using he?

/-! ## Operators -/

/-- What stands right of an operator is an expression, or a query or list with a quantifier. -/
@[simp] theorem faithful_rightSide {left : Expr} (op : String)
    (position : Option Position) (strength : Nat) (hleft : ReadFrom all left) :
    Faithful all (rightSide inner left op position strength) := by
  unfold rightSide
  refine .skip fun word? => ?_
  cases word? with
  | none =>
      refine (Level.Faithful.expr _).bind fun right hright => ?_
      simp [hleft, hright]
  | some word =>
      refine .skip fun found => ?_
      extract_lets -underBinder afterNext
      have hafterNext : ∀ subqueryNext, Faithful all (afterNext subqueryNext) := by
        intro subqueryNext
        unfold afterNext
        extract_lets -underBinder afterRight
        have hafterRight : ∀ right, ReadFrom all right → Faithful all (afterRight right) := by
          intro right hright
          unfold afterRight
          extract_lets -underBinder rest
          have hrest : ∀ u, Faithful all (rest u) := by
            intro u
            unfold rest
            split <;> simp [hleft, hright]
          split
          · exact hrest ()
          · exact .skip hrest
        exact .either (Level.Faithful.expr _) (faithful_parens (Level.Faithful.expr _)) hafterRight
      split
      · refine .skip fun token? => ?_
        split <;> exact .skip hafterNext
      · exact .skip hafterNext

/-- A test after `IS` adds the placeholders of what it compares to, where it compares. -/
@[simp] theorem faithful_isForm {e : Expr} (he : ReadFrom all e) :
    Faithful all (isForm inner e) := by
  unfold isForm
  extract_lets test
  -- Eight of the tests are told by their words alone.
  iterate 8
    refine .skip fun found => ?_
    split
    · simp [he, test]
  refine .skip fun found => ?_
  split
  · refine (Level.Faithful.expr _).bind fun other hother => ?_
    simp [he, hother]
  refine .skip fun found => ?_
  split
  · refine (Level.Faithful.expr _).bind fun other hother => ?_
    simp [he, hother]
  · exact faithful_failHere _

/-- A test for membership adds the placeholders of the list, of the array or of the query. -/
@[simp] theorem faithful_inForm {e : Expr} (negation : String)
    (he : ReadFrom all e) :
    Faithful all (inForm inner e negation) := by
  unfold inForm
  refine .skip fun found => ?_
  split
  · refine (faithful_parens (Level.Faithful.expr _)).bind fun array harray => ?_
    simp [he, harray]
  refine .skip fun _ => .skip fun found => ?_
  split
  · refine Level.Faithful.query.bind fun q hq => ?_
    refine .skip fun _ => ?_
    simp [he, hq]
  extract_lets afterValues
  have hafterValues : ∀ values, ReadFrom all values → Faithful all (afterValues values) := by
    intro values hvalues
    refine .skip fun _ => ?_
    simp [he, hvalues]
  exact .either (faithful_commaSeparatedOrNone _ (Level.Faithful.expr _))
    (faithful_commaSeparated (Level.Faithful.expr _)) hafterValues

/-- A comparison to a pattern adds the placeholders of the pattern. -/
@[simp] theorem faithful_likeForm {e : Expr} (words : String)
    (he : ReadFrom all e) :
    Faithful all (likeForm inner e words) := by
  unfold likeForm
  refine (Level.Faithful.expr _).bind fun pattern hpattern => ?_
  refine .skip fun escape => ?_
  extract_lets escape'
  simp [he, hpattern]

/-- A test after an operand, negated or not, adds the placeholders of its other operands. -/
@[simp] theorem faithful_testForm {e : Expr} (he : ReadFrom all e) :
    Faithful all (testForm inner e) := by
  unfold testForm
  extract_lets s
  refine .skip fun found => ?_
  extract_lets negation
  refine .skip fun byRegexp => .skip fun byRlike => ?_
  split
  · extract_lets word
    refine (Level.Faithful.expr _).bind fun pattern hpattern => ?_
    simp [he, hpattern]
  refine .skip fun found => ?_
  split
  · exact faithful_inForm _ he
  refine .skip fun found => ?_
  split
  · refine (Level.Faithful.expr _).bind fun low hlow => ?_
    refine .skip fun _ => ?_
    refine (Level.Faithful.expr _).bind fun high hhigh => ?_
    simp [he, hlow, hhigh]
  refine .skip fun found => ?_
  split
  · refine .skip fun found => ?_
    extract_lets any
    exact faithful_likeForm _ he
  refine .skip fun found => ?_
  split
  · refine .skip fun found => ?_
    extract_lets any
    exact faithful_likeForm _ he
  refine .skip fun found => ?_
  split
  · exact faithful_likeForm _ he
  · exact faithful_failHere _

/-- The bounds of a slice add their placeholders to those of its lower bound. -/
@[simp] theorem faithful_sliceRest {lower : List Piece}
    (hlower : ReadFrom all lower) :
    Faithful all (sliceRest inner lower) := by
  unfold sliceRest
  refine .skip fun found => ?_
  split
  · simpa using hlower
  refine (Level.Faithful.expr _).bind fun upper hupper => ?_
  extract_lets bounds
  have hbounds : ReadFrom all bounds := by simp [bounds, hlower, hupper]
  refine .skip fun found => ?_
  split
  · simpa using hbounds
  refine .skip fun _ => .skip fun found => ?_
  split
  · simpa using hbounds
  refine (Level.Faithful.expr _).bind fun stride hstride => ?_
  refine .skip fun _ => ?_
  simp [hbounds, hstride]

/-- A subscript adds the placeholders of its index or of its bounds. -/
@[simp] theorem faithful_subscript {e : Expr} (he : ReadFrom all e) :
    Faithful all (subscript inner e) := by
  unfold subscript
  refine .skip fun found => ?_
  extract_lets afterInside
  have hafterInside : ∀ inside, ReadFrom all inside → Faithful all (afterInside inside) := by
    intro inside hinside
    simp [afterInside, he, hinside]
  split
  · exact (faithful_sliceRest (by simp)).bind hafterInside
  refine (Level.Faithful.expr _).bind fun lower hlower => ?_
  refine .skip fun found => ?_
  split
  · exact .bind (by simpa using hlower) hafterInside
  · exact .skip fun _ => (faithful_sliceRest (by simpa using hlower)).bind hafterInside

/-- A key is an expression in brackets, or one after a colon. -/
@[simp] theorem faithful_key? : Faithful all (key? inner) := by
  unfold key?
  refine .skip fun found => ?_
  split
  · refine (Level.Faithful.expr _).bind fun key hkey => ?_
    refine .skip fun _ => ?_
    simpa using hkey
  refine .skip fun found => ?_
  split
  · refine .skip fun _ => ?_
    refine (Level.Faithful.expr _).bind fun e he => ?_
    simpa using he
  · simp

/-- Keys after an operand add their placeholders one after another. -/
@[simp] theorem faithful_keys {e : Expr} (he : ReadFrom all e) :
    Faithful all (keys inner e) := by
  unfold keys
  refine (faithful_many faithful_key?).bind fun rows hrows => ?_
  simp [he, hrows]

/-- What cannot go on an expression is a failure. -/
@[simp] theorem faithful_stray {α : Type} [HasLiterals α] (found : Option Lexeme) :
    Faithful all (stray found : Parse α) :=
  .skip fun _ => by simp

/-- What goes on an expression keeps its placeholders and adds those that it reads itself. -/
@[simp] theorem faithful_continuation {e : Expr} (strength : Nat)
    (he : ReadFrom all e) :
    Faithful all (continuation inner e strength) := by
  unfold continuation
  extract_lets d
  refine .skip fun found => ?_
  split
  · refine .skip fun _ => ?_
    refine (Level.Faithful.expr _).bind fun right hright => ?_
    simp [he, hright]
  refine .skip fun position => .skip fun op? => ?_
  cases op? with
  | none =>
      split
      · exact faithful_rightSide _ _ _ he
      split
      · split
        · exact .skip fun _ => faithful_isForm he
        · refine .skip fun _ => .skip fun _ => ?_
          refine (Level.Faithful.expr _).bind fun zone hzone => ?_
          simp [he, hzone]
        -- Each of these words starts a test.
        iterate 8
          · exact faithful_testForm he
        · exact faithful_stray _
      · refine .skip fun _ => .skip fun type => ?_
        simpa using he
      · split
        · exact .skip fun _ => faithful_subscript he
        · exact faithful_keys he
      · split
        · refine .skip fun _ => ?_
          simpa using he
        · exact faithful_stray _
      · exact faithful_stray _
  | some op => exact faithful_rightSide _ _ _ he

/-- An expression that is gone on with keeps what was read before, by induction on how often it may
be. -/
theorem faithful_continued (least fuel : Nat) :
    ∀ {e : Expr}, ReadFrom all e → Faithful all (continued inner least fuel e) := by
  induction fuel with
  | zero =>
      intro e he
      simpa [continued] using he
  | succ fuel ih =>
      intro e he
      refine .skip fun strength => ?_
      split
      · simpa using he
      · exact (faithful_continuation _ he).bind fun longer hlonger => ih hlonger

/-- Expressions are read faithfully: an operand, and what goes on it. -/
theorem faithful_expression (least : Nat) :
    Faithful all (expression inner least) :=
  .skip fun _ => (faithful_operand _).bind fun _ he => faithful_continued least _ he

end

end TypedSql.Grammar
