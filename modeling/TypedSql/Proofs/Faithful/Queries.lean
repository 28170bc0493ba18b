import TypedSql.Proofs.Faithful.Tables

namespace TypedSql.Grammar

/-! # Faithful queries and changes

The readings of items, changes and queries are faithful, where the readings they nest are.
-/

section

variable {all : List Lexeme} {inner : Level} [inner.Faithful all]

/-! ## Items -/

/-- A replacement in a star holds the placeholders of its expression. -/
@[simp] theorem faithful_replacement :
    Faithful all (replacement inner) := by
  unfold replacement
  refine (Level.Faithful.expr _).bind fun e he => ?_
  refine .skip fun found => ?_
  extract_lets sign
  refine .skip fun w => ?_
  simpa using he

/-- What the columns of a star are like holds no placeholder. -/
@[simp] theorem faithful_likeOption? : Faithful all (likeOption?) := by
  refine faithful_after? _ (.skip fun found => ?_)
  split <;> simp

/-- The columns that a star leaves out are names. -/
@[simp] theorem faithful_exceptOption? : Faithful all (exceptOption?) := by
  refine faithful_after? _ (.skip fun grouped => ?_)
  split <;> simp

/-- The replacements in a star hold the placeholders of each replacement. -/
@[simp] theorem faithful_replaceOption? :
    Faithful all (replaceOption? inner) := by
  refine faithful_after? _ (.skip fun grouped => ?_)
  split
  · refine (faithful_parens (faithful_commaSeparated faithful_replacement)).bind
      fun entries hentries => ?_
    simpa using hentries
  · simp

/-- The options of a star hold at most the placeholders of its replacements. -/
@[simp] theorem faithful_starOptions :
    Faithful all (starOptions inner) := by
  unfold starOptions
  extract_lets d afterLike
  have hafterLike : ∀ like, ReadFrom all like → Faithful all (afterLike like) := by
    intro like hlike
    unfold afterLike
    extract_lets afterExclude
    have hafterExclude : ∀ exclude, ReadFrom all exclude → Faithful all (afterExclude exclude) := by
      intro exclude hexclude
      unfold afterExclude
      extract_lets afterExcept
      have hafterExcept : ∀ except, ReadFrom all except → Faithful all (afterExcept except) := by
        intro except hexcept
        unfold afterExcept
        extract_lets afterReplace
        have hafterReplace : ∀ replace, ReadFrom all replace →
            Faithful all (afterReplace replace) := by
          intro replace hreplace
          unfold afterReplace
          extract_lets afterRename
          have hafterRename : ∀ rename, ReadFrom all rename →
              Faithful all (afterRename rename) := by
            intro rename hrename
            simp [afterRename, hlike, hexclude, hexcept, hreplace, hrename]
          exact .either (faithful_after? _ (by simp)) (by simp) hafterRename
        exact .either faithful_replaceOption? (by simp) hafterReplace
      exact .either faithful_exceptOption? (by simp) hafterExcept
    exact .either (faithful_after? _ (by simp)) (by simp) hafterExclude
  exact .either faithful_likeOption? (by simp) hafterLike

/-- An item is a star with its options, or an expression that may have a name. -/
@[simp] theorem faithful_selectItem : Faithful all (selectItem inner) := by
  unfold selectItem
  refine faithful_starred.bind fun item hitem => ?_
  cases item with
  | star =>
      refine faithful_starOptions.bind fun options hoptions => ?_
      simpa using hoptions
  | qualified names =>
      refine faithful_starOptions.bind fun options hoptions => ?_
      simpa using hoptions
  | expr e =>
      split
      · refine faithful_starOptions.bind fun options hoptions => ?_
        simpa using hoptions
      · refine faithful_starOptions.bind fun options hoptions => ?_
        simpa using hoptions
      · split
        · exact faithful_refuseHere _
        · refine .skip fun aliasName? => ?_
          cases aliasName? <;> simp_all

/-- The placeholders of items are those of each item. -/
@[simp] theorem faithful_selectItems :
    Faithful all (selectItems inner) :=
  faithful_commaSeparated faithful_selectItem

/-- The placeholders of a select list are those of each item, also where a comma ends the list. -/
@[simp] theorem faithful_selectList : Faithful all (selectList inner) :=
  faithful_rowWhile _ faithful_selectItem

/-- Returned items are read like the items of a select. -/
@[simp] theorem faithful_returning? : Faithful all (returning? inner) :=
  faithful_after? _ faithful_selectItems

/-! ## Changes -/

/-- An assignment holds the placeholders of the value: its target is a name or a row of names. -/
@[simp] theorem faithful_assignment : Faithful all (assignment inner) := by
  unfold assignment
  extract_lets -underBinder d
  refine .skip fun found => ?_
  extract_lets afterTarget
  have hafterTarget : ∀ target, Faithful all (afterTarget target) := by
    intro target
    refine .skip fun _ => ?_
    refine (Level.Faithful.expr _).bind fun e he => ?_
    simpa using he
  split
  · exact .skip fun columns => .skip hafterTarget
  · exact .skip hafterTarget

/-- The placeholders of assignments are those of each of them. -/
@[simp] theorem faithful_assignments :
    Faithful all (assignments inner) :=
  faithful_listedPieces faithful_assignment

/-- The placeholders of a condition on rows are those of its expression. -/
@[simp] theorem faithful_where? : Faithful all (where? inner) :=
  faithful_after? _ (Level.Faithful.expr _)

/-- What is done about a row that is there holds the placeholders of its assignments and of its
condition. -/
@[simp] theorem faithful_conflict? : Faithful all (conflict? inner) := by
  unfold conflict?
  refine .skip fun found => ?_
  split
  · refine .skip fun found => ?_
    split
    · refine .skip fun found => .skip fun found => ?_
      extract_lets afterTarget
      have hafterTarget : ∀ target, Faithful all (afterTarget target) := by
        intro target
        refine .skip fun _ => .skip fun found => ?_
        split
        · simp
        refine .skip fun _ => .skip fun _ => ?_
        refine faithful_assignments.bind fun changes hchanges => ?_
        refine faithful_where?.bind fun condition hcondition => ?_
        simp [hchanges, hcondition]
      split
      · exact .skip fun names => .skip hafterTarget
      split
      · exact .skip fun names => .skip hafterTarget
      · exact .skip hafterTarget
    refine .skip fun _ => .skip fun _ => .skip fun _ => ?_
    refine faithful_assignments.bind fun pieces hpieces => ?_
    simpa using hpieces
  · simp

/-- Inserted rows are read from a query, after the partition that they may have. -/
@[simp] theorem faithful_insertRows : Faithful all (insertRows inner) := by
  unfold insertRows
  extract_lets -underBinder d
  refine .skip fun found => ?_
  split
  · simp
  refine .skip fun token? => .skip fun token? => ?_
  extract_lets queryNext afterOpening
  have hafterOpening : ∀ opening, ReadFrom all opening → Faithful all (afterOpening opening) := by
    intro opening hopening
    refine Level.Faithful.query.bind fun q hq => ?_
    simp [hopening, hq]
  split
  · exact .bind (by simp) hafterOpening
  refine .skip fun columns => ?_
  refine (faithful_after? _ (faithful_parens faithful_exprs)).bind fun partition hpartition => ?_
  exact .bind (by simpa using hpartition) hafterOpening

/-- A name for the inserted row holds no placeholder. -/
@[simp] theorem faithful_rowAlias? (d : Dialect) : Faithful all (rowAlias? d) := by
  unfold rowAlias?
  refine .skip fun found => ?_
  split
  · refine .skip fun _ => .skip fun aliasName => .skip fun columns => ?_
    simp
  · simp

/-- An insert into a directory is read like its query. -/
@[simp] theorem faithful_directoryInsert (overwrite isLocal : Bool) :
    Faithful all (directoryInsert inner overwrite isLocal) := by
  unfold directoryInsert
  refine .skip fun path => .skip fun format => ?_
  extract_lets rowFormat
  refine Level.Faithful.query.bind fun q hq => ?_
  simpa using hq

/-- An insert holds the placeholders of its rows, of what is done about a conflict, and of what is
returned. -/
@[simp] theorem faithful_insert : Faithful all (insert inner) := by
  unfold insert
  extract_lets d
  refine .skip fun resolution => ?_
  extract_lets afterPriority
  have hafterPriority : ∀ priority, Faithful all (afterPriority priority) := by
    intro priority
    unfold afterPriority
    extract_lets -underBinder afterIgnore
    have hafterIgnore : ∀ ignore, Faithful all (afterIgnore ignore) := by
      intro ignore
      refine .skip fun overwrite => .skip fun into => .skip fun isLocal => .skip fun found => ?_
      split
      · refine (faithful_directoryInsert _ _).bind fun pieces hpieces => ?_
        simpa using hpieces
      refine .skip fun table => .skip fun target => ?_
      extract_lets -underBinder afterAliasName
      have hafterAliasName : ∀ aliasName, Faithful all (afterAliasName aliasName) := by
        intro aliasName
        refine faithful_insertRows.bind fun rows hrows => ?_
        refine (faithful_rowAlias? _).bind fun rowAlias hrowAlias => ?_
        refine faithful_conflict?.bind fun conflict hconflict => ?_
        refine faithful_returning?.bind fun returning hreturning => ?_
        extract_lets -underBinder opening
        simp [hrows, hrowAlias, hconflict, hreturning]
      split <;> exact .skip hafterAliasName
    split <;> exact .skip hafterIgnore
  split <;> exact .skip hafterPriority

/-- An update holds the placeholders of its target, of its changes, of its source, of its condition,
and of what is returned. -/
@[simp] theorem faithful_update : Faithful all (update inner) := by
  unfold update
  refine .skip fun words? => ?_
  extract_lets opening
  refine faithful_tableWithJoins.bind fun target htarget => ?_
  refine .skip fun _ => ?_
  refine faithful_assignments.bind fun changes hchanges => ?_
  refine .skip fun found => ?_
  extract_lets afterSource
  have hafterSource : ∀ source, ReadFrom all source → Faithful all (afterSource source) := by
    intro source hsource
    refine faithful_where?.bind fun condition hcondition => ?_
    refine faithful_returning?.bind fun returning hreturning => ?_
    cases source with
    | none => simp [htarget, hchanges, hcondition, hreturning]
    | some t =>
        have ht : ReadFrom all t := by simpa using hsource
        simp [htarget, hchanges, ht, hcondition, hreturning]
  split
  · split
    · exact .bind (by simp) hafterSource
    · exact (faithful_some faithful_tableWithJoins).bind hafterSource
  · exact .bind (by simp) hafterSource

/-- A limit holds the placeholders of its expression, and none where it is `ALL`. -/
@[simp] theorem faithful_limit : Faithful all (limit inner) := by
  unfold limit
  refine .skip fun found => ?_
  split
  · simp
  · exact faithful_some (Level.Faithful.expr _)

/-- A delete holds the placeholders of its tables, of its condition, order and limit, and of what is
returned. -/
@[simp] theorem faithful_delete : Faithful all (delete inner) := by
  unfold delete
  refine .skip fun _ => ?_
  refine (faithful_commaSeparated faithful_tableWithJoins).bind fun targets htargets => ?_
  refine (faithful_after? _ (faithful_commaSeparated faithful_tableWithJoins)).bind
    fun others hothers => ?_
  refine faithful_where?.bind fun condition hcondition => ?_
  refine faithful_returning?.bind fun returning hreturning => ?_
  refine (faithful_afterAll? _ faithful_orderItems).bind fun order horder => ?_
  refine (faithful_after? _ faithful_limit).bind fun rows hrows => ?_
  simp [htargets, hothers, hcondition, hreturning, horder, hrows]

/-! ## Clauses of a select -/

/-- The keys by which rows are told apart hold the placeholders of their expressions. -/
@[simp] theorem faithful_distinctRows :
    Faithful all (distinctRows inner) := by
  unfold distinctRows
  refine .skip fun position => .skip fun everyRow => .skip fun found => ?_
  split
  · extract_lets rest
    have hrest : ∀ u, Faithful all (rest u) := by
      intro u
      refine .skip fun found => ?_
      split
      · refine (faithful_parens (faithful_commaSeparatedOrNone _ (Level.Faithful.expr _))).bind
          fun keys hkeys => ?_
        simpa using hkeys
      · simp
    split
    · exact .skip hrest
    · exact hrest ()
  · simp

/-- The number of first rows is an expression in parentheses or a plain number. -/
@[simp] theorem faithful_top : Faithful all (top inner) := by
  unfold top
  refine .skip fun found => ?_
  split
  · refine .skip fun found => ?_
    extract_lets afterQuantity
    have hafterQuantity : ∀ quantity, ReadFrom all quantity →
        Faithful all (afterQuantity quantity) := by
      intro quantity hquantity
      refine .skip fun found => ?_
      extract_lets percent
      refine .skip fun found => ?_
      extract_lets ties
      simpa using hquantity
    split
    · refine (faithful_parens (Level.Faithful.expr _)).bind fun e he => ?_
      exact .bind (by simpa using he) hafterQuantity
    · exact .skip fun number => .bind (by simp) hafterQuantity
  · simp

/-- A lateral view holds the placeholders of its expression. -/
@[simp] theorem faithful_lateralView? :
    Faithful all (lateralView? inner) := by
  unfold lateralView?
  refine .skip fun found => ?_
  split
  · refine .skip fun found => ?_
    extract_lets outer
    refine (Level.Faithful.expr _).bind fun e he => ?_
    refine .skip fun view => .skip fun rows => ?_
    simpa using he
  · simp

/-- A set to group by is read like its expressions. -/
@[simp] theorem faithful_groupSet (bare : Bool) :
    Faithful all (groupSet inner bare) := by
  unfold groupSet
  refine .skip fun found => ?_
  split
  · refine (Level.Faithful.expr _).bind fun e he => ?_
    simpa using he
  refine (faithful_parens (faithful_commaSeparatedOrNone _ (Level.Faithful.expr _))).bind
    fun es hes => ?_
  cases es with
  | nil => simp
  | cons e es =>
      split
      · split <;> simp_all
      · simpa using hes

/-- An item to group by is an expression, or a kind of grouping with its sets. -/
@[simp] theorem faithful_groupItem : Faithful all (groupItem inner) := by
  have hsets (bare : Bool) : Faithful all (parens (commaSeparated (groupSet inner bare))) :=
    faithful_parens (faithful_commaSeparated (faithful_groupSet bare))
  unfold groupItem
  extract_lets d
  split
  · refine .skip fun found => ?_
    split
    · refine (hsets false).bind fun sets hsets => ?_
      simpa using hsets
    refine .skip fun found => ?_
    split
    · refine (hsets true).bind fun sets hsets => ?_
      simpa using hsets
    refine .skip fun found => ?_
    split
    · refine (hsets true).bind fun sets hsets => ?_
      simpa using hsets
    refine .skip fun found => .skip fun token? => ?_
    split
    · refine .skip fun _ => .skip fun _ => ?_
      simp
    · refine (Level.Faithful.expr _).bind fun e he => ?_
      simpa using he
  · refine (Level.Faithful.expr _).bind fun e he => ?_
    simpa using he

/-- A modifier of a grouping holds no placeholder. -/
@[simp] theorem faithful_groupModifier? : Faithful all (groupModifier?) := by
  unfold groupModifier?
  refine .skip fun found => ?_
  split
  · refine .skip fun text => ?_
    simp
  · simp

/-- A grouping holds the placeholders of its items. -/
@[simp] theorem faithful_grouping : Faithful all (grouping inner) := by
  unfold grouping
  refine .skip fun found => ?_
  split
  · refine .skip fun found => ?_
    extract_lets afterItems
    have hafterItems : ∀ items, ReadFrom all items → Faithful all (afterItems items) := by
      intro items hitems
      unfold afterItems
      extract_lets afterModifiers
      have hafterModifiers : ∀ modifiers, ReadFrom all modifiers →
          Faithful all (afterModifiers modifiers) := by
        intro modifiers hmodifiers
        simp [afterModifiers, hitems, hmodifiers]
      exact .either (faithful_many faithful_groupModifier?) (by simp) hafterModifiers
    exact .either (by simp) (faithful_listedPieces faithful_groupItem) hafterItems
  · simp

/-- A window with a name is read like the window. -/
@[simp] theorem faithful_namedWindow :
    Faithful all (namedWindow inner) := by
  unfold namedWindow
  refine .skip fun w => .skip fun _ => .skip fun found => ?_
  split
  · refine faithful_windowSpec.bind fun pieces hpieces => ?_
    simpa using hpieces
  split
  · refine .skip fun w => ?_
    simp
  · exact faithful_failHere _

/-- The placeholders of named windows are those of each window. -/
@[simp] theorem faithful_windows : Faithful all (windows inner) := by
  unfold windows
  refine (faithful_after? _ (faithful_commaSeparated faithful_namedWindow)).bind
    fun windows hwindows => ?_
  simp [hwindows]

/-- A condition on windows is read like its expression. -/
@[simp] theorem faithful_qualify : Faithful all (qualify inner) := by
  unfold qualify
  refine (faithful_after? _ (Level.Faithful.expr _)).bind fun e? he? => ?_
  simpa using he?

/-- Windows and the condition on them may come in either order. -/
@[simp] theorem faithful_windowClauses :
    Faithful all (windowClauses inner) := by
  unfold windowClauses
  refine faithful_windows.bind fun first hfirst => ?_
  refine faithful_qualify.bind fun condition hcondition => ?_
  extract_lets afterLast
  have hafterLast : ∀ last, ReadFrom all last → Faithful all (afterLast last) := by
    intro last hlast
    simp [afterLast, hfirst, hcondition, hlast]
  exact .either faithful_windows (by simp) hafterLast

/-- A clause with expressions to sort or spread by is read like them. -/
@[simp] theorem faithful_byClause (word : String) :
    Faithful all (byClause inner word) := by
  unfold byClause
  refine (faithful_afterAll? _ faithful_exprs).bind fun pieces? hpieces? => ?_
  simpa using hpieces?

/-- A hierarchy holds the placeholders of its start and of its links, whichever comes first. -/
@[simp] theorem faithful_hierarchy : Faithful all (hierarchy inner) := by
  unfold hierarchy
  extract_lets linked start text
  have hlinked : Faithful all linked :=
    faithful_map (faithful_commaSeparated (Level.Faithful.linking _)) fun _ hlinks => by
      simpa using hlinks
  have hstart : Faithful all start := .skip fun _ => Level.Faithful.expr _
  refine .skip fun word => ?_
  split
  · refine .skip fun found => ?_
    split
    · refine hlinked.bind fun links hlinks => ?_
      refine hstart.bind fun first hfirst => ?_
      simp [text, hlinks, hfirst]
    refine hstart.bind fun first hfirst => ?_
    refine .skip fun _ => ?_
    refine hlinked.bind fun links hlinks => ?_
    simp [text, hfirst, hlinks]
  · simp

/-- The clauses of a select hold the placeholders of each of them. -/
@[simp] theorem faithful_selectClauses :
    Faithful all (selectClauses inner) := by
  unfold selectClauses
  refine (faithful_many faithful_lateralView?).bind fun views hviews => ?_
  extract_lets afterEarly
  have hafterEarly : ∀ early, ReadFrom all early → Faithful all (afterEarly early) := by
    intro early hearly
    refine faithful_where?.bind fun condition hcondition => ?_
    refine faithful_grouping.bind fun group hgroup => ?_
    refine (faithful_byClause _).bind fun cluster hcluster => ?_
    refine (faithful_byClause _).bind fun distribute hdistribute => ?_
    refine (faithful_byClause _).bind fun sort hsort => ?_
    refine (faithful_after? _ (Level.Faithful.expr _)).bind fun having hhaving => ?_
    refine faithful_windowClauses.bind fun windows hwindows => ?_
    refine faithful_hierarchy.bind fun hierarchy hhierarchy => ?_
    simp [hviews, hearly, hcondition, hgroup, hcluster, hdistribute, hsort, hhaving, hwindows,
      hhierarchy]
  exact .either (faithful_after? _ (Level.Faithful.expr _)) (by simp) hafterEarly

/-- A select holds the placeholders of its items, of its tables and of all of its clauses. -/
@[simp] theorem faithful_select : Faithful all (select inner) := by
  unfold select
  extract_lets d
  refine .skip fun mode => ?_
  refine faithful_distinctRows.bind fun distinct hdistinct => ?_
  refine faithful_top.bind fun top htop => ?_
  refine faithful_selectList.bind fun items hitems => ?_
  refine .skip fun into => ?_
  refine (faithful_after? _ (faithful_commaSeparated faithful_tableWithJoins)).bind
    fun sources hsources => ?_
  refine faithful_selectClauses.bind fun closing hclosing => ?_
  simp [hdistinct, htop, hitems, hsources, hclosing]

/-! ## Bodies -/

/-- A whole table holds no placeholder. -/
@[simp] theorem faithful_wholeTable : Faithful all (wholeTable) := by
  unfold wholeTable
  refine .skip fun first => .skip fun second => .skip fun third => ?_
  extract_lets word
  split
  · refine .skip fun schema => .skip fun table => ?_
    simp
  · refine .skip fun table => ?_
    simp

/-- A body is a select, a query in parentheses, rows of values or a whole table. -/
@[simp] theorem faithful_plainBody : Faithful all (plainBody inner) := by
  unfold plainBody
  refine .skip fun found => ?_
  split
  · refine faithful_select.bind fun s hs => ?_
    simpa using hs
  refine .skip fun found => ?_
  split
  · refine (faithful_parens Level.Faithful.query).bind fun q hq => ?_
    simpa using hq
  refine .skip fun found => ?_
  split
  · refine (faithful_rows _).bind fun pieces hpieces => ?_
    simpa using hpieces
  refine .skip fun found => ?_
  split
  · exact faithful_wholeTable
  · exact faithful_failHere _

/-- Bodies that are combined keep the placeholders on both sides, by induction on how often they may
be combined. -/
theorem faithful_combinedFrom (least : Nat) {right : Nat → Parse QueryBody}
    (hright : ∀ strength, Faithful all (right strength)) (fuel : Nat) :
    ∀ {body : QueryBody}, ReadFrom all body →
      Faithful all (combinedFrom least right fuel body) := by
  induction fuel with
  | zero =>
      intro body hbody
      simpa [combinedFrom] using hbody
  | succ fuel ih =>
      intro body hbody
      refine .skip fun word => ?_
      split
      · simpa using hbody
      · refine .skip fun _ => .skip fun quantifier => ?_
        exact (hright _).bind fun other hother => ih (by simp [hbody, hother])

/-- Intersections are read faithfully. -/
@[simp] theorem faithful_intersections :
    Faithful all (intersections inner) :=
  .skip fun _ => faithful_plainBody.bind fun _ hbody =>
    faithful_combinedFrom _ (fun _ => faithful_plainBody) _ hbody

/-- Bodies are read faithfully: combinations bind less than intersections. -/
@[simp] theorem faithful_body : Faithful all (body inner) := by
  refine .skip fun _ => faithful_plainBody.bind fun _ hbody =>
    faithful_combinedFrom _ (fun strength => ?_) _ hbody
  split
  · exact faithful_intersections
  · exact faithful_plainBody

/-! ## Queries -/

/-- A query with a name is read like the query. -/
@[simp] theorem faithful_namedQuery : Faithful all (namedQuery inner) := by
  unfold namedQuery
  extract_lets d
  refine .skip fun w => .skip fun found => ?_
  extract_lets afterColumns
  have hafterColumns : ∀ columns, Faithful all (afterColumns columns) := by
    intro columns
    refine .skip fun kept => ?_
    refine (faithful_parens Level.Faithful.query).bind fun q hq => ?_
    refine .skip fun source => ?_
    simpa using hq
  split
  · exact .skip hafterColumns
  · exact .skip fun columns => .skip fun _ => .skip hafterColumns

/-- The placeholders of a `WITH` clause are those of its queries. -/
@[simp] theorem faithful_namedQueries :
    Faithful all (namedQueries inner) := by
  unfold namedQueries
  refine .skip fun found => ?_
  split
  · refine .skip fun found => ?_
    extract_lets recursive
    refine (faithful_commaSeparated faithful_namedQuery).bind fun queries hqueries => ?_
    simpa using hqueries
  · simp

/-- An offset holds the placeholders of its expression. -/
@[simp] theorem faithful_offset : Faithful all (offset inner) := by
  unfold offset
  refine (Level.Faithful.expr _).bind fun e he => ?_
  refine .skip fun word? => ?_
  extract_lets unit
  simpa using he

/-- The limit of bounds holds no placeholder that they do not hold. -/
@[simp] theorem readFrom_limit {b : Bounds} (hb : ReadFrom all b) : ReadFrom all b.limit :=
  ((readFrom_boundsMk b.limit b.offset).1 hb).1

/-- The offset of bounds holds no placeholder that they do not hold. -/
@[simp] theorem readFrom_offset {b : Bounds} (hb : ReadFrom all b) : ReadFrom all b.offset :=
  ((readFrom_boundsMk b.limit b.offset).1 hb).2

/-- Bounds that are read once more keep the placeholders read before. -/
@[simp] theorem faithful_boundsOnce {b : Bounds} (hb : ReadFrom all b) :
    Faithful all (boundsOnce inner b) := by
  unfold boundsOnce
  extract_lets d afterLimit
  have hafterLimit : ∀ limit, ReadFrom all limit → Faithful all (afterLimit limit) := by
    intro limit hlimit
    unfold afterLimit
    extract_lets afterOffset
    have hafterOffset : ∀ offset, ReadFrom all offset → Faithful all (afterOffset offset) := by
      intro offset hoffset
      unfold afterOffset
      split
      · refine .skip fun found => ?_
        split
        · refine .skip fun _ => ?_
          refine (Level.Faithful.expr _).bind fun e he => ?_
          simpa [he] using hlimit
        · simpa using hlimit
      · simp [hlimit, hoffset]
    split
    · refine .skip fun found => ?_
      exact .either (faithful_some faithful_offset) (by simp) hafterOffset
    · exact .bind (by simp [hb]) hafterOffset
  split
  · refine .skip fun found => ?_
    exact .either faithful_limit (by simp) hafterLimit
  · exact .bind (by simp [hb]) hafterLimit

/-- A limit and an offset may come in either order. -/
@[simp] theorem faithful_bounds : Faithful all (bounds inner) := by
  unfold bounds
  refine (faithful_boundsOnce (by simp)).bind fun b hb => ?_
  refine (faithful_boundsOnce hb).bind fun both hboth => ?_
  simp [hboth]

/-- A fetch holds the placeholder that its quantity may be. -/
@[simp] theorem faithful_fetch : Faithful all (fetch) := by
  unfold fetch
  refine .skip fun _ => .skip fun word? => ?_
  extract_lets afterQuantity
  have hafterQuantity : ∀ quantity, ReadFrom all quantity →
      Faithful all (afterQuantity quantity) := by
    intro quantity hquantity
    refine .skip fun found => .skip fun found => ?_
    extract_lets afterExtent
    have hafterExtent : ∀ extent, Faithful all (afterExtent extent) := by
      intro extent
      simpa [afterExtent] using hquantity
    split
    · exact .skip hafterExtent
    · split <;> exact .skip hafterExtent
  split
  · exact .bind (by simp) hafterQuantity
  refine faithful_constant.bind fun value hvalue => ?_
  refine .skip fun found => ?_
  extract_lets percent
  exact .skip fun _ => .bind (by simpa using hvalue) hafterQuantity

/-- A format is a word. -/
@[simp] theorem faithful_format (d : Dialect) : Faithful all (format d) := by
  unfold format
  refine .skip fun found => ?_
  split
  · refine .skip fun _ => .skip fun found => ?_
    split
    · simp
    · refine .skip fun w => ?_
      simp
  · simp

/-- A column that is filled in holds the placeholders of its expression. -/
@[simp] theorem faithful_interpolation :
    Faithful all (interpolation inner) := by
  unfold interpolation
  refine .skip fun w => ?_
  refine (faithful_after? _ (Level.Faithful.expr _)).bind fun e? he? => ?_
  simpa using he?

/-- Columns that are filled in hold the placeholders of each of them. -/
@[simp] theorem faithful_interpolations :
    Faithful all (interpolations inner) := by
  unfold interpolations
  split
  · refine .skip fun found => ?_
    split
    · refine .skip fun found => ?_
      split
      · refine (faithful_parens (faithful_commaSeparatedOrNone _ faithful_interpolation)).bind
          fun columns hcolumns => ?_
        simpa using hcolumns
      · simp
    · simp
  · simp

/-- The order of rows holds the placeholders of its expressions and of the columns filled in. -/
@[simp] theorem faithful_rowOrder : Faithful all (rowOrder inner) := by
  unfold rowOrder
  refine .skip fun found => ?_
  split
  · refine faithful_orderItems.bind fun order horder => ?_
    refine faithful_interpolations.bind fun pieces hpieces => ?_
    simp [horder, hpieces]
  · simp

/-- What closes a query holds the placeholders of its order, of its bounds and of its settings. -/
@[simp] theorem faithful_queryClosing :
    Faithful all (queryClosing inner) := by
  unfold queryClosing
  extract_lets d
  refine faithful_rowOrder.bind fun order horder => ?_
  refine faithful_bounds.bind fun bounds hbounds => ?_
  extract_lets afterPerKey
  have hafterPerKey : ∀ perKey, ReadFrom all perKey → Faithful all (afterPerKey perKey) := by
    intro perKey hperKey
    unfold afterPerKey
    extract_lets afterSettings
    have hafterSettings : ∀ settings, ReadFrom all settings →
        Faithful all (afterSettings settings) := by
      intro settings hsettings
      refine (faithful_after? _ faithful_fetch).bind fun fetched hfetched => ?_
      refine .skip fun fuel => .skip fun purposes => ?_
      refine (faithful_format _).bind fun format hformat => ?_
      simp [horder, hbounds, hperKey, hsettings, hfetched, hformat]
    exact .either (faithful_after? _ faithful_settings) (by simp) hafterSettings
  exact .either (faithful_after? _ faithful_exprs) (by simp) hafterPerKey

/-- A query holds the placeholders of its named queries, of its body and of what closes it. -/
@[simp] theorem faithful_query : Faithful all (query inner) := by
  unfold query
  refine faithful_namedQueries.bind fun opening hopening => ?_
  refine .skip fun found => ?_
  split
  · refine faithful_insert.bind fun form hform => ?_
    cases form <;> simpa [hopening] using hform
  refine .skip fun found => ?_
  split
  · refine faithful_update.bind fun u hu => ?_
    simp [hopening, hu]
  refine faithful_body.bind fun body hbody => ?_
  refine faithful_queryClosing.bind fun pieces hpieces => ?_
  simp [hopening, hbody, hpieces]

end

end TypedSql.Grammar
