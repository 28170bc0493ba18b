import TypedSql.Grammar
import TypedSql.Proofs.Grammar.Literals

namespace TypedSql.Grammar

/-! # Placeholders in values

What a reading gives may hold constants, in the parts of a statement that it is made of. A value is
read from lexemes when each of its placeholders is read for a constant at some place in them.
-/

/-- What a reading gives, with the constants in it. -/
class HasLiterals (α : Type) where
  literals : α → List Literal

/-- What a reading gives that holds no constants. -/
class NoLiterals (α : Type) [HasLiterals α] : Prop where
  literals_eq_nil : ∀ a : α, HasLiterals.literals a = []

/-! ## Kinds of values -/

section

variable {α β ε : Type}

/-- A value of no other kind holds no constants. -/
instance (priority := low) plainLiterals : HasLiterals α := ⟨fun _ => []⟩

instance : @NoLiterals α plainLiterals := @NoLiterals.mk α plainLiterals fun _ => rfl

instance [HasLiterals α] : HasLiterals (List α) := ⟨List.flatMap HasLiterals.literals⟩

instance [HasLiterals α] : HasLiterals (Option α) :=
  ⟨fun a? => a?.toList.flatMap HasLiterals.literals⟩

instance [HasLiterals α] [HasLiterals β] : HasLiterals (α × β) :=
  ⟨fun p => HasLiterals.literals p.1 ++ HasLiterals.literals p.2⟩

instance [HasLiterals α] : HasLiterals (Except ε α) :=
  ⟨fun outcome => HasLiterals.literals outcome.toOption⟩

instance [HasLiterals α] [NoLiterals α] : NoLiterals (List α) where
  literals_eq_nil as := by simp [HasLiterals.literals, NoLiterals.literals_eq_nil]

instance [HasLiterals α] [NoLiterals α] : NoLiterals (Option α) where
  literals_eq_nil a? := by simp [HasLiterals.literals, NoLiterals.literals_eq_nil]

instance [HasLiterals α] [HasLiterals β] [NoLiterals α] [NoLiterals β] : NoLiterals (α × β) where
  literals_eq_nil p := by simp [HasLiterals.literals, NoLiterals.literals_eq_nil]

end

instance : HasLiterals Literal := ⟨fun l => [l]⟩

instance : HasLiterals Expr := ⟨Expr.literals⟩

instance : HasLiterals Piece := ⟨Piece.literals⟩

instance : HasLiterals Query := ⟨Query.literals⟩

instance : HasLiterals QueryBody := ⟨QueryBody.literals⟩

instance : HasLiterals Select := ⟨Select.literals⟩

instance : HasLiterals SelectItem := ⟨SelectItem.literals⟩

instance : HasLiterals TableFactor := ⟨TableFactor.literals⟩

instance : HasLiterals TableWithJoins := ⟨TableWithJoins.literals⟩

instance : HasLiterals Join := ⟨Join.literals⟩

instance : HasLiterals Insert := ⟨Insert.literals⟩

instance : HasLiterals Update := ⟨Update.literals⟩

instance : HasLiterals Delete := ⟨Delete.literals⟩

instance : HasLiterals Statement := ⟨Statement.literals⟩

instance : HasLiterals Starred := ⟨fun s => pieceLiterals s.pieces⟩

instance : HasLiterals Arguments := ⟨fun args => pieceLiterals args.pieces⟩

instance : HasLiterals Bounds :=
  ⟨fun b => HasLiterals.literals b.limit ++ HasLiterals.literals b.offset⟩

instance : HasLiterals InsertForm where
  literals
    | .table i => i.literals
    | .directory pieces => pieceLiterals pieces

/-! ## Values read from lexemes -/

/-- A placeholder with a text is read for a constant at some place in lexemes. -/
def PlaceholderIn (all : List Lexeme) (text : String) : Prop :=
  ∃ left rest, left <:+ all ∧ constant.run left = (.ok (.placeholder text), rest)

/-- All placeholders in a value are read for constants in lexemes. -/
def ReadFrom {α : Type} [HasLiterals α] (all : List Lexeme) (a : α) : Prop :=
  ∀ text, .placeholder text ∈ HasLiterals.literals a → PlaceholderIn all text

section

variable {α β ε : Type} [HasLiterals α] [HasLiterals β] {all : List Lexeme}

/-- A value of a kind without constants is read from any text. -/
@[simp] theorem readFrom_plain [NoLiterals α] (a : α) : ReadFrom all a := by
  simp [ReadFrom, NoLiterals.literals_eq_nil]

/-- A list is read from a text when each of its elements is. -/
theorem readFrom_iff_forall (as : List α) : ReadFrom all as ↔ ∀ a ∈ as, ReadFrom all a := by
  simp only [ReadFrom, HasLiterals.literals, List.mem_flatMap]
  constructor
  · intro h a ha text htext
    exact h text ⟨a, ha, htext⟩
  · rintro h text ⟨a, ha, htext⟩
    exact h a ha text htext

/-- There is nothing to read in an empty list. -/
@[simp] theorem readFrom_nil : ReadFrom all ([] : List α) := by
  simp [readFrom_iff_forall]

@[simp] theorem readFrom_cons (a : α) (as : List α) :
    ReadFrom all (a :: as) ↔ ReadFrom all a ∧ ReadFrom all as := by
  simp [readFrom_iff_forall]

@[simp] theorem readFrom_append (as bs : List α) :
    ReadFrom all (as ++ bs) ↔ ReadFrom all as ∧ ReadFrom all bs := by
  simp [readFrom_iff_forall, or_imp, forall_and]

@[simp] theorem readFrom_reverse (as : List α) : ReadFrom all as.reverse ↔ ReadFrom all as := by
  simp [readFrom_iff_forall]

/-- Rows put together are read from a text when each row is. -/
@[simp] theorem readFrom_flatten (rows : List (List α)) :
    ReadFrom all rows.flatten ↔ ReadFrom all rows := by
  simp only [readFrom_iff_forall, List.mem_flatten]
  constructor
  · intro h row hrow a ha
    exact h a ⟨row, hrow, ha⟩
  · rintro h a ⟨row, hrow, ha⟩
    exact h row hrow a ha

@[simp] theorem readFrom_none : ReadFrom all (none : Option α) := by
  simp [ReadFrom, HasLiterals.literals]

@[simp] theorem readFrom_some (a : α) : ReadFrom all (some a) ↔ ReadFrom all a := by
  simp [ReadFrom, HasLiterals.literals]

/-- An optional value is read like the list of at most one value that it is. -/
@[simp] theorem readFrom_toList (a? : Option α) : ReadFrom all a?.toList ↔ ReadFrom all a? := by
  cases a? <;> simp

/-- A value or another in its place is read from a text when both are. -/
@[simp] theorem readFrom_getD {a? : Option α} {a : α} (h? : ReadFrom all a?) (h : ReadFrom all a) :
    ReadFrom all (a?.getD a) := by
  cases a? with
  | none => exact h
  | some b => simpa using h?

/-- What is made of each element is read from a text when it holds nothing that the element does not
hold. -/
@[simp] theorem readFrom_map {f : α → β} {as : List α} (h : ReadFrom all as)
    (hf : ∀ a, ReadFrom all a → ReadFrom all (f a)) : ReadFrom all (as.map f) := by
  simp only [readFrom_iff_forall, List.mem_map] at h ⊢
  rintro b ⟨a, ha, rfl⟩
  exact hf a (h a ha)

/-- What is made of some of the elements is read from a text when it holds nothing that the elements
do not hold. -/
@[simp] theorem readFrom_filterMap {f : α → Option β} {as : List α} (h : ReadFrom all as)
    (hf : ∀ a, ReadFrom all a → ReadFrom all (f a)) : ReadFrom all (as.filterMap f) := by
  simp only [readFrom_iff_forall, List.mem_filterMap] at h ⊢
  rintro b ⟨a, ha, heq⟩
  have hb : ReadFrom all (f a) := hf a (h a ha)
  simpa [heq] using hb

/-- What is made of an optional value is read from a text when it holds nothing that the value does
not hold. -/
@[simp] theorem readFrom_optionMap {f : α → β} {a? : Option α} (h : ReadFrom all a?)
    (hf : ∀ a, ReadFrom all a → ReadFrom all (f a)) : ReadFrom all (a?.map f) := by
  cases a? with
  | none => simp
  | some a => simpa using hf a (by simpa using h)

/-- Fewer elements hold fewer placeholders. -/
theorem readFrom_of_subset {as bs : List α} (hsub : as ⊆ bs) (h : ReadFrom all bs) :
    ReadFrom all as := by
  rw [readFrom_iff_forall] at h ⊢
  exact fun a ha => h a (hsub ha)

@[simp] theorem readFrom_filter (keep : α → Bool) {as : List α} (h : ReadFrom all as) :
    ReadFrom all (as.filter keep) :=
  readFrom_of_subset List.filter_sublist.subset h

@[simp] theorem readFrom_dropLast {as : List α} (h : ReadFrom all as) :
    ReadFrom all as.dropLast :=
  readFrom_of_subset (List.dropLast_subset as) h

/-- A pair is read from a text when both of its parts are. -/
@[simp] theorem readFrom_mk (a : α) (b : β) :
    ReadFrom all (a, b) ↔ ReadFrom all a ∧ ReadFrom all b := by
  simp [ReadFrom, HasLiterals.literals, or_imp, forall_and]

@[simp] theorem readFrom_fst {p : α × β} (h : ReadFrom all p) : ReadFrom all p.1 :=
  ((readFrom_mk p.1 p.2).1 h).1

@[simp] theorem readFrom_snd {p : α × β} (h : ReadFrom all p) : ReadFrom all p.2 :=
  ((readFrom_mk p.1 p.2).1 h).2

@[simp] theorem readFrom_ok (a : α) : ReadFrom all (.ok a : Except ε α) ↔ ReadFrom all a := by
  simp [ReadFrom, HasLiterals.literals, Except.toOption]

/-- A failure holds no placeholder. -/
@[simp] theorem readFrom_error (e : ε) : ReadFrom all (.error e : Except ε α) := by
  simp [ReadFrom, HasLiterals.literals, Except.toOption]

end

/-! ## Parts of statements -/

section

variable {all : List Lexeme}

/-- Whether a value is read from a text is told by its constants alone. -/
theorem readFrom_of_literals {α β : Type} [HasLiterals α] [HasLiterals β] {a : α} {b : β}
    (h : HasLiterals.literals a = HasLiterals.literals b) : ReadFrom all a ↔ ReadFrom all b := by
  rw [ReadFrom, ReadFrom, h]

/-- A value without constants is read from any text. -/
theorem readFrom_of_literals_eq_nil {α : Type} [HasLiterals α] {a : α}
    (h : HasLiterals.literals a = []) : ReadFrom all a := by
  simp [ReadFrom, h]

/-- A value with the constants of two parts is read from a text when both parts are. -/
theorem readFrom_of_literals_append {α β γ : Type} [HasLiterals α] [HasLiterals β] [HasLiterals γ]
    {a : α} {b : β} {c : γ}
    (h : HasLiterals.literals a = HasLiterals.literals b ++ HasLiterals.literals c) :
    ReadFrom all a ↔ ReadFrom all b ∧ ReadFrom all c := by
  simp [ReadFrom, h, or_imp, forall_and]

/-- The constants of pieces are those of each piece in turn. -/
theorem literals_pieces (pieces : List Piece) :
    HasLiterals.literals pieces = pieceLiterals pieces := by
  induction pieces with
  | nil => rfl
  | cons piece rest ih => exact congrArg (piece.literals ++ ·) ih

/-- The constants of items are those of each item in turn. -/
theorem literals_items (items : List SelectItem) :
    HasLiterals.literals items = itemLiterals items := by
  induction items with
  | nil => rfl
  | cons item rest ih => exact congrArg (item.literals ++ ·) ih

/-- The constants of tables are those of each table in turn. -/
theorem literals_sources (sources : List TableWithJoins) :
    HasLiterals.literals sources = sourceLiterals sources := by
  induction sources with
  | nil => rfl
  | cons table rest ih => exact congrArg (table.literals ++ ·) ih

/-- The constants of joins are those of each join in turn. -/
theorem literals_joins (joins : List Join) :
    HasLiterals.literals joins = joinLiterals joins := by
  induction joins with
  | nil => rfl
  | cons join rest ih => exact congrArg (join.literals ++ ·) ih

/-! ### Constants, expressions and pieces -/

/-- A constant that is no placeholder is read from any text. -/
theorem readFrom_of_placeholder?_eq_none {l : Literal} (h : l.placeholder? = none) :
    ReadFrom all l := by
  intro text htext
  simp only [HasLiterals.literals, List.mem_singleton] at htext
  subst htext
  cases h

@[simp] theorem readFrom_string (mark : StringMark) (quote : StringQuote) (content : String) :
    ReadFrom all (Literal.string mark quote content) :=
  readFrom_of_placeholder?_eq_none rfl

@[simp] theorem readFrom_boolean (value : Bool) : ReadFrom all (Literal.boolean value) :=
  readFrom_of_placeholder?_eq_none rfl

@[simp] theorem readFrom_null : ReadFrom all Literal.null :=
  readFrom_of_placeholder?_eq_none rfl

/-- A name is no constant. -/
@[simp] theorem readFrom_name (w : Word) : ReadFrom all (Expr.name w) :=
  readFrom_of_literals_eq_nil rfl

/-- A dotted name is no constant. -/
@[simp] theorem readFrom_path (names : List Word) : ReadFrom all (Expr.path names) :=
  readFrom_of_literals_eq_nil rfl

@[simp] theorem readFrom_literal (l : Literal) : ReadFrom all (Expr.literal l) ↔ ReadFrom all l :=
  Iff.rfl

/-- Parentheses add no placeholder. -/
@[simp] theorem readFrom_nested (e : Expr) : ReadFrom all (Expr.nested e) ↔ ReadFrom all e :=
  Iff.rfl

/-- An operator in front adds no placeholder. -/
@[simp] theorem readFrom_unary (op : String) (e : Expr) :
    ReadFrom all (Expr.unary op e) ↔ ReadFrom all e :=
  Iff.rfl

/-- The placeholders of an operation are those of both sides. -/
@[simp] theorem readFrom_binary (l : Expr) (op : String) (r : Expr) :
    ReadFrom all (Expr.binary l op r) ↔ ReadFrom all l ∧ ReadFrom all r :=
  readFrom_mk l r

/-- A query that is an operand is read like the query. -/
@[simp] theorem readFrom_subquery (q : Query) :
    ReadFrom all (Expr.subquery q) ↔ ReadFrom all q :=
  Iff.rfl

/-- A form is read like its pieces. -/
@[simp] theorem readFrom_form (pieces : List Piece) :
    ReadFrom all (Expr.form pieces) ↔ ReadFrom all pieces :=
  readFrom_of_literals (literals_pieces _).symm

/-- Text between the pieces holds no placeholder. -/
@[simp] theorem readFrom_text (s : String) : ReadFrom all (Piece.text s) :=
  readFrom_of_literals_eq_nil rfl

@[simp] theorem readFrom_expr (e : Expr) : ReadFrom all (Piece.expr e) ↔ ReadFrom all e :=
  Iff.rfl

@[simp] theorem readFrom_query (q : Query) : ReadFrom all (Piece.query q) ↔ ReadFrom all q :=
  Iff.rfl

@[simp] theorem readFrom_table (t : TableWithJoins) :
    ReadFrom all (Piece.table t) ↔ ReadFrom all t :=
  Iff.rfl

/-! ### Clauses -/

/-- Commas between clauses add no placeholder. -/
@[simp] theorem readFrom_listedPieces (rows : List (List Piece)) :
    ReadFrom all (listedPieces rows) ↔ ReadFrom all rows := by
  fun_induction listedPieces rows with
  | case1 => simp
  | case2 row => simp
  | case3 row rest _ ih => simp [ih]

/-- Commas between expressions add no placeholder. -/
@[simp] theorem readFrom_listedExprs (es : List Expr) :
    ReadFrom all (listedExprs es) ↔ ReadFrom all es := by
  rw [listedExprs, readFrom_listedPieces]
  induction es with
  | nil => simp
  | cons e es ih => simp [ih]

/-- The words around an optional clause add no placeholder. -/
@[simp] theorem readFrom_optionalPieces (opening closing : String) (pieces : Option (List Piece)) :
    ReadFrom all (optionalPieces opening pieces closing) ↔ ReadFrom all pieces := by
  cases pieces <;> simp [optionalPieces]

/-- The words before an optional expression add no placeholder. -/
@[simp] theorem readFrom_optionalExpr (opening : String) (e : Option Expr) :
    ReadFrom all (optionalExpr opening e) ↔ ReadFrom all e := by
  cases e <;> simp [optionalExpr]

/-- Blanks between clauses add no placeholder. -/
@[simp] theorem readFrom_spacedPieces {clauses : List (List Piece)} (h : ReadFrom all clauses) :
    ReadFrom all (spacedPieces clauses) := by
  refine readFrom_of_subset (List.drop_subset 1 _) ?_
  rw [readFrom_flatten]
  exact readFrom_map h fun clause hclause => by simp [hclause]

/-! ### Queries and tables -/

/-- A query is read from a text when what opens it, its body and what closes it are. -/
@[simp] theorem readFrom_queryMk (opening closing : List Piece) (body : QueryBody) :
    ReadFrom all (Query.mk opening body closing) ↔
      ReadFrom all opening ∧ ReadFrom all body ∧ ReadFrom all closing := by
  have h : HasLiterals.literals (Query.mk opening body closing) =
      HasLiterals.literals opening ++ HasLiterals.literals body ++ HasLiterals.literals closing := by
    simp only [literals_pieces]
    rfl
  simp only [ReadFrom, h, List.mem_append, or_imp, forall_and, and_assoc]

@[simp] theorem readFrom_bodySelect (s : Select) :
    ReadFrom all (QueryBody.select s) ↔ ReadFrom all s :=
  Iff.rfl

@[simp] theorem readFrom_bodyQuery (q : Query) :
    ReadFrom all (QueryBody.query q) ↔ ReadFrom all q :=
  Iff.rfl

/-- Two bodies that are combined are read from a text when both are. -/
@[simp] theorem readFrom_combined (l : QueryBody) (op : String) (r : QueryBody) :
    ReadFrom all (QueryBody.combined l op r) ↔ ReadFrom all l ∧ ReadFrom all r :=
  readFrom_mk l r

@[simp] theorem readFrom_bodyInsert (i : Insert) :
    ReadFrom all (QueryBody.insert i) ↔ ReadFrom all i :=
  Iff.rfl

@[simp] theorem readFrom_bodyUpdate (u : Update) :
    ReadFrom all (QueryBody.update u) ↔ ReadFrom all u :=
  Iff.rfl

/-- A body of a form of its own is read like its pieces. -/
@[simp] theorem readFrom_bodyOther (pieces : List Piece) :
    ReadFrom all (QueryBody.other pieces) ↔ ReadFrom all pieces :=
  readFrom_of_literals (literals_pieces _).symm

/-- A select is read from a text when its clauses, its items and its tables are. -/
@[simp] theorem readFrom_selectMk (opening into : String) (leading closing : List Piece)
    (items : List SelectItem) (sources : List TableWithJoins) :
    ReadFrom all (Select.mk opening leading items into sources closing) ↔
      ReadFrom all leading ∧ ReadFrom all items ∧ ReadFrom all sources ∧ ReadFrom all closing := by
  have h : HasLiterals.literals (Select.mk opening leading items into sources closing) =
      HasLiterals.literals leading ++ HasLiterals.literals items ++ HasLiterals.literals sources ++
        HasLiterals.literals closing := by
    simp only [literals_pieces, literals_items, literals_sources]
    rfl
  simp only [ReadFrom, h, List.mem_append, or_imp, forall_and, and_assoc]

/-- A star is read like its options. -/
@[simp] theorem readFrom_wildcard (options : List Piece) :
    ReadFrom all (SelectItem.wildcard options) ↔ ReadFrom all options :=
  readFrom_of_literals (literals_pieces _).symm

/-- A star after a name is read like its options. -/
@[simp] theorem readFrom_qualifiedWildcard (names : List Word) (options : List Piece) :
    ReadFrom all (SelectItem.qualifiedWildcard names options) ↔ ReadFrom all options :=
  readFrom_of_literals (literals_pieces _).symm

@[simp] theorem readFrom_plainItem (e : Expr) :
    ReadFrom all (SelectItem.plain e) ↔ ReadFrom all e :=
  Iff.rfl

/-- A name for an item adds no placeholder. -/
@[simp] theorem readFrom_aliased (e : Expr) (aliasName : Word) :
    ReadFrom all (SelectItem.aliased e aliasName) ↔ ReadFrom all e :=
  Iff.rfl

/-- The constants of optional pieces are those of the pieces that are there. -/
theorem literals_optionPieces (pieces : Option (List Piece)) :
    HasLiterals.literals pieces = optionLiterals pieces := by
  cases pieces with
  | none => rfl
  | some pieces => exact (List.append_nil _).trans (literals_pieces pieces)

/-- The constants of returned items are those of the items that are there. -/
theorem literals_optionItems (items : Option (List SelectItem)) :
    HasLiterals.literals items = returningLiterals items := by
  cases items with
  | none => rfl
  | some items => exact (List.append_nil _).trans (literals_items items)

/-- A table with a name is read from a text when its arguments and what closes it are. -/
@[simp] theorem readFrom_named (names partitions : List Word) (args : Option (List Piece))
    (ordinality : Bool) (tableAlias : Option TableAlias) (closing : List Piece) :
    ReadFrom all (TableFactor.named names partitions args ordinality tableAlias closing) ↔
      ReadFrom all args ∧ ReadFrom all closing :=
  readFrom_of_literals_append (by
    simp only [literals_optionPieces, literals_pieces]
    rfl)

/-- A name for joined tables adds no placeholder. -/
@[simp] theorem readFrom_joined (t : TableWithJoins) (tableAlias : Option TableAlias) :
    ReadFrom all (TableFactor.joined t tableAlias) ↔ ReadFrom all t :=
  Iff.rfl

/-- A table of a form of its own is read like its pieces. -/
@[simp] theorem readFrom_otherTable (pieces closing : List Piece)
    (tableAlias : Option TableAlias) :
    ReadFrom all (TableFactor.other pieces tableAlias closing) ↔
      ReadFrom all pieces ∧ ReadFrom all closing :=
  readFrom_of_literals_append (by
    simp only [literals_pieces]
    rfl)

/-- Joined tables are read from a text when the first table and the joins are. -/
@[simp] theorem readFrom_tableMk (first : TableFactor) (joins : List Join) :
    ReadFrom all (TableWithJoins.mk first joins) ↔ ReadFrom all first ∧ ReadFrom all joins :=
  readFrom_of_literals_append (by
    simp only [literals_joins]
    rfl)

/-- A join is read from a text when its table and its condition are. -/
@[simp] theorem readFrom_joinMk (words : String) (right : TableFactor) (condition : List Piece) :
    ReadFrom all (Join.mk words right condition) ↔ ReadFrom all right ∧ ReadFrom all condition :=
  readFrom_of_literals_append (by
    simp only [literals_pieces]
    rfl)

/-! ### Changes and statements -/

/-- An insert is read from a text when its rows, what is done about conflicts and what is returned
are. -/
@[simp] theorem readFrom_insertMk (opening : String) (target : List Word) (aliasName : Option Word)
    (rows : List Piece) (conflict : Option (List Piece)) (returning : Option (List SelectItem)) :
    ReadFrom all (Insert.mk opening target aliasName rows conflict returning) ↔
      ReadFrom all rows ∧ ReadFrom all conflict ∧ ReadFrom all returning := by
  have h : HasLiterals.literals (Insert.mk opening target aliasName rows conflict returning) =
      HasLiterals.literals rows ++ HasLiterals.literals conflict ++
        HasLiterals.literals returning := by
    simp only [literals_pieces, literals_optionPieces, literals_optionItems]
    rfl
  simp only [ReadFrom, h, List.mem_append, or_imp, forall_and, and_assoc]

/-- An update is read from a text when its target, its changes and what is returned are. -/
@[simp] theorem readFrom_updateMk (opening : String) (target : TableWithJoins)
    (changes : List Piece) (returning : Option (List SelectItem)) :
    ReadFrom all (Update.mk opening target changes returning) ↔
      ReadFrom all target ∧ ReadFrom all changes ∧ ReadFrom all returning := by
  have h : HasLiterals.literals (Update.mk opening target changes returning) =
      HasLiterals.literals target ++ HasLiterals.literals changes ++
        HasLiterals.literals returning := by
    simp only [literals_pieces, literals_optionItems]
    rfl
  simp only [ReadFrom, h, List.mem_append, or_imp, forall_and, and_assoc]

/-- A delete is read from a text when its tables, its clauses and what is returned are. -/
@[simp] theorem readFrom_deleteMk (targets : List TableWithJoins)
    (returning : Option (List SelectItem)) (clauses : List Piece) :
    ReadFrom all (Delete.mk targets returning clauses) ↔
      ReadFrom all targets ∧ ReadFrom all returning ∧ ReadFrom all clauses := by
  have h : HasLiterals.literals (Delete.mk targets returning clauses) =
      HasLiterals.literals targets ++ HasLiterals.literals returning ++
        HasLiterals.literals clauses := by
    simp only [literals_pieces, literals_sources, literals_optionItems]
    rfl
  simp only [ReadFrom, h, List.mem_append, or_imp, forall_and, and_assoc]

@[simp] theorem readFrom_queryStatement (q : Query) :
    ReadFrom all (Statement.query q) ↔ ReadFrom all q :=
  Iff.rfl

@[simp] theorem readFrom_insertStatement (i : Insert) :
    ReadFrom all (Statement.insert i) ↔ ReadFrom all i :=
  Iff.rfl

@[simp] theorem readFrom_updateStatement (u : Update) :
    ReadFrom all (Statement.update u) ↔ ReadFrom all u :=
  Iff.rfl

@[simp] theorem readFrom_deleteStatement (d : Delete) :
    ReadFrom all (Statement.delete d) ↔ ReadFrom all d :=
  Iff.rfl

/-- A command holds no placeholder. -/
@[simp] theorem readFrom_command (kind : String) : ReadFrom all (Statement.command kind) :=
  readFrom_of_literals_eq_nil rfl

/-! ### Parts that are put together later -/

/-- A star or an expression is read like its pieces. -/
@[simp] theorem readFrom_starredPieces (s : Starred) :
    ReadFrom all s.pieces ↔ ReadFrom all s :=
  readFrom_of_literals (literals_pieces s.pieces)

@[simp] theorem readFrom_starredExpr (e : Expr) :
    ReadFrom all (Starred.expr e) ↔ ReadFrom all e := by
  rw [← readFrom_starredPieces]
  simp [Starred.pieces]

@[simp] theorem readFrom_star : ReadFrom all Starred.star := by
  rw [← readFrom_starredPieces]
  simp [Starred.pieces]

@[simp] theorem readFrom_starredNames (names : List Word) :
    ReadFrom all (Starred.qualified names) := by
  rw [← readFrom_starredPieces]
  simp [Starred.pieces]

/-- Arguments are read like their pieces. -/
@[simp] theorem readFrom_argumentPieces (args : Arguments) :
    ReadFrom all args.pieces ↔ ReadFrom all args :=
  readFrom_of_literals (literals_pieces args.pieces)

@[simp] theorem readFrom_argumentsMk (pieces : List Piece) (treatsNulls : Bool) :
    ReadFrom all (Arguments.mk pieces treatsNulls) ↔ ReadFrom all pieces :=
  (readFrom_argumentPieces ⟨pieces, treatsNulls⟩).symm

/-- Bounds are read from a text when the limit and the offset are. -/
@[simp] theorem readFrom_boundsMk (limit : Option Expr) (offset : Option (List Piece)) :
    ReadFrom all (Bounds.mk limit offset) ↔ ReadFrom all limit ∧ ReadFrom all offset :=
  readFrom_of_literals_append rfl

@[simp] theorem readFrom_tableForm (i : Insert) :
    ReadFrom all (InsertForm.table i) ↔ ReadFrom all i :=
  Iff.rfl

/-- An insert into a directory is read like its pieces. -/
@[simp] theorem readFrom_directoryForm (pieces : List Piece) :
    ReadFrom all (InsertForm.directory pieces) ↔ ReadFrom all pieces :=
  readFrom_of_literals (literals_pieces pieces).symm

/-- A table that is a piece is read like the table. -/
@[simp] theorem readFrom_factorPiece (t : TableFactor) :
    ReadFrom all (factorPiece t) ↔ ReadFrom all t := by
  simp [factorPiece]

end

end TypedSql.Grammar
