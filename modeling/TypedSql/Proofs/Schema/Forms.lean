import TypedSql.Proofs.Json.Entries
import TypedSql.Proofs.Keyed
import TypedSql.Schema.Json

namespace TypedSql

open Json Json.Codec Json.Reader Reading

/-! # The two forms of a relation

The columns of a relation are given as an object, each under its name, or as a list of objects that
name themselves. What a text says of its relations is told here by the pairs of names and types that
it gives, so that the two forms say the same. The schema that is read depends on these pairs alone,
and is what they come to when they are added one after another.
-/

/-! ## One column -/

/-- Entries give a flag, or leave it out if it is not set. -/
def GivesFlag (entries : List (String × Json)) (key : String) (value : Bool) : Prop :=
  valuesOf key entries = [.flag value] ∨ valuesOf key entries = [] ∧ value = false

/-- Entries give the type of a column, in whatever order. Those of other keys say nothing. -/
structure ColumnType.GivenBy (type : ColumnType) (entries : List (String × Json)) : Prop where
  typeName : valuesOf "type" entries = [.text type.typeName]
  nullable : GivesFlag entries "nullable" type.nullable
  array : GivesFlag entries "array" type.array

section

variable {entries : List (String × Json)} {type : ColumnType} {key : String}

/-- A flag that is given or left out is read as its value. -/
theorem given_of_givesFlag {value : Bool} (h : GivesFlag entries key value) :
    (defaulted key .flag false).Given entries value := by
  rcases h with hvalues | ⟨hvalues, rfl⟩
  · exact .once hvalues rfl
  · exact .absent hvalues rfl

/-- Entries that give the type of a column are read as it. -/
theorem ColumnType.GivenBy.ofJson (h : type.GivenBy entries) :
    ColumnType.codec.ofJson (.object entries) = .ok type := by
  refine ofJson_map (x := (type.typeName, type.nullable, type.array, ()))
    (ofJson_object "SchemaField" (by decide) ?_)
  exact ⟨.once h.typeName rfl, given_of_givesFlag h.nullable, given_of_givesFlag h.array, trivial⟩

/-- A type is given by what there is under its three keys. -/
theorem ColumnType.GivenBy.congr {others : List (String × Json)} (h : type.GivenBy entries)
    (hvalues : ∀ key ∈ ["type", "nullable", "array"], valuesOf key others = valuesOf key entries) :
    type.GivenBy others := by
  have hflag {key : String} {value : Bool} (hkey : key ∈ ["type", "nullable", "array"])
      (hgives : GivesFlag entries key value) : GivesFlag others key value := by
    unfold GivesFlag
    rwa [hvalues key hkey]
  refine ⟨?_, hflag (by decide) h.nullable, hflag (by decide) h.array⟩
  rw [hvalues "type" (by decide)]
  exact h.typeName

/-- Other keys say nothing of the type. -/
theorem ColumnType.GivenBy.cons {json : Json} (h : type.GivenBy entries)
    (hkey : key ∉ ["type", "nullable", "array"]) : type.GivenBy ((key, json) :: entries) :=
  h.congr fun _ hmem => valuesOf_cons_of_ne (ne_of_mem_of_not_mem hmem hkey).symm

/-- The name of a column that names itself is no part of its type. -/
theorem ColumnType.GivenBy.filter (h : type.GivenBy entries) :
    type.GivenBy (entries.filter fun entry => entry.1 ≠ "name") :=
  h.congr fun _ hmem => valuesOf_filter_of_ne (ne_of_mem_of_not_mem hmem (by decide))

end

/-- The entries of a type without the flags that are not set. -/
def ColumnType.shortEntries (type : ColumnType) : List (String × Json) :=
  ("type", .text type.typeName) ::
    ((if type.nullable then [("nullable", .flag true)] else []) ++
      if type.array then [("array", .flag true)] else [])

/-- The short entries of a type give the type. -/
theorem ColumnType.givenBy_shortEntries (type : ColumnType) : type.GivenBy type.shortEntries := by
  obtain ⟨typeName, nullable, array⟩ := type
  cases nullable <;> cases array
  · exact ⟨rfl, .inr ⟨rfl, rfl⟩, .inr ⟨rfl, rfl⟩⟩
  · exact ⟨rfl, .inr ⟨rfl, rfl⟩, .inl rfl⟩
  · exact ⟨rfl, .inl rfl, .inr ⟨rfl, rfl⟩⟩
  · exact ⟨rfl, .inl rfl, .inl rfl⟩

theorem ColumnType.valuesOf_name_shortEntries (type : ColumnType) :
    valuesOf "name" type.shortEntries = [] := by
  obtain ⟨typeName, nullable, array⟩ := type
  cases nullable <;> cases array <;> rfl

/-- The short entries of a type nest nothing. -/
theorem ColumnType.fits_shortEntries (type : ColumnType) (depth : Nat) :
    ∀ entry ∈ type.shortEntries, Fits depth entry.2 := by
  obtain ⟨typeName, nullable, array⟩ := type
  cases nullable <;> cases array <;>
    simp [shortEntries, Fits.text, Fits.flag]

/-! ## One relation -/

namespace Columns

/-- A column under its name. -/
def EntryGives (entry : String × Json) (column : String × ColumnType) : Prop :=
  entry.1 = column.1 ∧ ∃ fields, entry.2 = .object fields ∧ column.2.GivenBy fields

/-- A column that names itself. -/
def ItemGives (item : Json) (column : String × ColumnType) : Prop :=
  ∃ fields, item = .object fields ∧ valuesOf "name" fields = [.text column.1] ∧
    column.2.GivenBy fields

/-- A relation is given by the pairs of its columns in either form. -/
inductive GivenBy : Json → List (String × ColumnType) → Prop
  | object {entries : List (String × Json)} {columns : List (String × ColumnType)}
      (h : List.Forall₂ EntryGives entries columns) : GivenBy (.object entries) columns
  | list {items : List Json} {columns : List (String × ColumnType)}
      (h : List.Forall₂ ItemGives items columns) : GivenBy (.list items) columns

/-- Entries that give columns are read as these columns. -/
theorem ofEntries_of_gives {entries : List (String × Json)} {columns : List (String × ColumnType)}
    (h : List.Forall₂ EntryGives entries columns) : ofEntries entries = .ok columns := by
  refine Outcome.mapM_eq_ok_of_forall₂ (h.imp ?_)
  rintro ⟨_, _⟩ ⟨name, type⟩ ⟨rfl, fields, rfl, htype⟩
  dsimp only
  rw [htype.ofJson]
  rfl

/-- An item that gives a column is read as this column. -/
theorem ofItem_of_gives {item : Json} {column : String × ColumnType} (h : ItemGives item column) :
    ofItem item = .ok column := by
  obtain ⟨fields, rfl, hname, htype⟩ := h
  -- The name is taken out before the type is read off what is left.
  obtain ⟨⟨key, json⟩, hnames, hjson⟩ := List.map_eq_singleton_iff.1 hname
  obtain rfl : json = .text column.1 := hjson
  have hothers : (fields.filter fun entry => entry.1 != "name") =
      fields.filter fun entry => entry.1 ≠ "name" :=
    List.filter_congr fun entry _ => by simp [bne, beq_eq_decide]
  have hnames : (fields.filter fun entry => entry.1 == "name") = [(key, .text column.1)] := hnames
  unfold ofItem
  dsimp only
  rw [hothers, hnames]
  dsimp only
  rw [htype.filter.ofJson]
  rfl

/-- A value that gives columns, in either form, is read as these columns. -/
theorem GivenBy.ofJson? {json : Json} {columns : List (String × ColumnType)}
    (h : GivenBy json columns) : Columns.ofJson? json = some (Keyed.ofList columns) := by
  cases h with
  | object h =>
      unfold Columns.ofJson?
      dsimp only
      rw [ofEntries_of_gives h]
      rfl
  | list h =>
      unfold Columns.ofJson?
      dsimp only
      rw [Outcome.mapM_eq_ok_of_forall₂ (h.imp fun _ _ => ofItem_of_gives)]
      rfl

/-- The forms in which a relation may be written. -/
inductive Form
  | object
  | list
  deriving DecidableEq, Repr

/-- A relation in a form, without the flags that are not set. -/
def Form.write (form : Form) (columns : List (String × ColumnType)) : Json :=
  match form with
  | .object => .object (columns.map fun column => (column.1, .object column.2.shortEntries))
  | .list =>
      .list (columns.map fun column =>
        .object (("name", .text column.1) :: column.2.shortEntries))

/-- Both forms give the columns that they are written for. -/
theorem givenBy_write (form : Form) (columns : List (String × ColumnType)) :
    GivenBy (form.write columns) columns := by
  cases form with
  | object =>
      refine .object (List.forall₂_map_left_iff.2 (List.forall₂_same.2 fun column _ => ?_))
      exact ⟨rfl, _, rfl, column.2.givenBy_shortEntries⟩
  | list =>
      refine .list (List.forall₂_map_left_iff.2 (List.forall₂_same.2 fun column _ => ?_))
      refine ⟨_, rfl, ?_, column.2.givenBy_shortEntries.cons (by decide)⟩
      exact congrArg (Json.text column.1 :: ·) column.2.valuesOf_name_shortEntries

/-- Both forms nest two levels deep at most. -/
theorem fits_write (form : Form) (columns : List (String × ColumnType)) (depth : Nat) :
    Fits (depth + 2) (form.write columns) := by
  cases form with
  | object =>
      refine .object (List.forall_mem_map.2 fun column _ => .object ?_)
      exact column.2.fits_shortEntries depth
  | list =>
      refine .list (List.forall_mem_map.2 fun column _ => .object ?_)
      exact List.forall_mem_cons.2 ⟨.text _ _, column.2.fits_shortEntries depth⟩

end Columns

/-! ## Schemas -/

namespace Schema

/-- A relation under its name, in either form. -/
def RelationGives (relation : String × Json) (table : String × List (String × ColumnType)) : Prop :=
  relation.1 = table.1 ∧ Columns.GivenBy relation.2 table.2

/-- A text gives the relations of a schema by the pairs of their columns, each in either form. -/
def GivenBy (text : String) (tables : List (String × List (String × ColumnType))) : Prop :=
  ∃ relations, Json.ofText text = .ok (.object relations) ∧
    List.Forall₂ RelationGives relations tables

/-- Tables added one after another. -/
def ofTables (tables : List (String × List (String × ColumnType))) : Schema :=
  tables.foldl (fun s table => s.withTable table.1 table.2) empty

section

variable {text : String} {tables : List (String × List (String × ColumnType))}

/-- The relations of tables are their columns under their names. -/
theorem relations_ofTables (tables : List (String × List (String × ColumnType))) :
    (ofTables tables).relations =
      Keyed.ofList (tables.map fun table => (table.1, Keyed.ofList table.2)) := by
  -- The schema that is added to changes on the way, so it has to be any.
  have hfold : ∀ s : Schema,
      (tables.foldl (fun s table => s.withTable table.1 table.2) s).relations =
        (tables.map fun table => (table.1, Keyed.ofList table.2)).foldl
          (fun k pair => k.insert pair.1 pair.2) s.relations := by
    induction tables with
    | nil => exact fun _ => rfl
    | cons table tables ih => exact fun s => ih (s.withTable table.1 table.2)
  exact hfold empty

/-- Each relation is added when it is read, whatever its form. -/
theorem takesUp_relations {relations : List (String × Json)}
    (h : List.Forall₂ RelationGives relations tables) (s : Schema) :
    TakesUp readRelation relationDepth s.relations relations
      (tables.foldl (fun s table => s.withTable table.1 table.2) s).relations := by
  induction h generalizing s with
  | nil => exact .nil _
  | @cons relation table relations tables hfirst _ ih =>
      obtain ⟨name, json⟩ := relation
      obtain ⟨rfl, hcolumns⟩ := hfirst
      refine .cons (fun cs rest hvalue => ?_) (ih (s.withTable table.1 table.2))
      obtain ⟨_, atValue, hcolon, hvalue⟩ := run_bind_eq_ok.1 hvalue
      refine (run_bind_of_ok hcolon).trans ((run_bind_of_ok hvalue).trans ?_)
      rw [hcolumns.ofJson?]
      rfl

/-- A text that gives tables is read as the schema of these tables. -/
theorem ofJsonText_of_givenBy (h : GivenBy text tables) :
    ofJsonText text = .ok (ofTables tables) := by
  -- The text is read as a value, hence its relations can be added while they are read.
  obtain ⟨relations, htext, htables⟩ := h
  obtain ⟨left, last, hvalue, hend⟩ := readAll_eq_ok.1 htext
  obtain ⟨opened, hpeek, hobject⟩ := exists_object hvalue
  have hrelations := hobject (takesUp_relations htables empty)
  refine readAll_eq_ok.2 ⟨left, last, ?_, hend⟩
  exact (run_bind_of_ok hpeek).trans (run_bind_of_ok hrelations)

/-- A text with relations in forms that are chosen for each of them. -/
def formed (layout : Layout)
    (relations : List (Columns.Form × String × List (String × ColumnType))) : String :=
  String.ofList (write layout 0
    (.object (relations.map fun relation => (relation.2.1, relation.1.write relation.2.2))))

/-- Every list of tables is given by texts with its relations in any forms, in either layout. -/
theorem givenBy_formed (layout : Layout)
    (relations : List (Columns.Form × String × List (String × ColumnType))) :
    GivenBy (formed layout relations) (relations.map Prod.snd) := by
  refine ⟨_, ofText_write layout (.object (List.forall_mem_map.2 fun relation _ => ?_)), ?_⟩
  · exact Columns.fits_write relation.1 relation.2.2 124
  · refine List.forall₂_map_left_iff.2 (List.forall₂_map_right_iff.2 ?_)
    exact List.forall₂_same.2 fun relation _ => ⟨rfl, Columns.givenBy_write _ _⟩

/-- The two forms of a relation say the same. A text that gives every relation by the pairs of its
columns, each relation in whichever form, is read as the schema to which the relations come when
they are added one after another, and so is every other text that gives the same pairs. A name that
is given again keeps its first place and has what is given last, be it a relation or a column. -/
theorem forms_agree (h : GivenBy text tables) :
    let s := ofTables tables
    ofJsonText text = .ok s ∧
      (∀ other, GivenBy other tables → ofJsonText other = ofJsonText text) ∧
      s.tableNames = (tables.map Prod.fst).eraseDups ∧
      ∀ name, Option.Rel Keyed.FilledFrom (tables.reverse.lookup name) (s.table? name) := by
  intro s
  have hread := ofJsonText_of_givenBy h
  refine ⟨hread, fun other hother => ?_, ?_, fun name => ?_⟩
  · rw [hread, ofJsonText_of_givenBy hother]
  · show (ofTables tables).relations.keys = _
    rw [relations_ofTables, Keyed.keys_ofList, List.map_map]
    rfl
  · show Option.Rel _ _ ((ofTables tables).relations.get? name)
    rw [relations_ofTables, Keyed.get?_ofList, ← List.map_reverse, Keyed.lookup_map]
    cases tables.reverse.lookup name with
    | none => exact .none
    | some columns => exact .some (Keyed.filledFrom_iff.2 rfl)

/-- A relation and a column of it are given twice, with the forms of the relations exchanged. -/
theorem forms_agree_products :
    let products : List (String × ColumnType) :=
      [("id", ⟨"number", false, false⟩), ("sku", ⟨"string", true, false⟩),
        ("id", ⟨"bigint", false, false⟩)]
    let orders : List (String × ColumnType) := [("total", ⟨"number", false, false⟩)]
    let tables := [("products", orders), ("orders", orders), ("products", products)]
    let text := formed .compact
      [(.object, "products", orders), (.list, "orders", orders), (.list, "products", products)]
    let other := formed .indented
      [(.list, "products", orders), (.object, "orders", orders), (.object, "products", products)]
    GivenBy text tables ∧ ofJsonText text = .ok (ofTables tables) ∧
      ofJsonText other = ofJsonText text ∧
      (ofTables tables).tableNames = ["products", "orders"] ∧
      ((ofTables tables).table? "products").map Keyed.entries =
        some [("id", ⟨"bigint", false, false⟩), ("sku", ⟨"string", true, false⟩)] := by
  intro products orders tables text other
  have htext : GivenBy text tables := givenBy_formed .compact _
  have hother : GivenBy other tables := givenBy_formed .indented _
  obtain ⟨hread, hforms, hnames, -⟩ := forms_agree htext
  exact ⟨htext, hread, hforms other hother, hnames, by decide⟩

end

end Schema

end TypedSql
