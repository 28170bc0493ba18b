import TypedSql.Batch

namespace TypedSql.Shape

/-! # Nothing is passed over in silence

A table that a statement visits is either one of its relations or the subject of a finding, and so
is every item that it lists among its fields or the findings. The account is kept element by
element, after whatever the statements before have left behind.
-/

/-! ## What has a place in a shape -/

/-- A named table is the relation of that name, with its alias. -/
inductive NamesRelation : TableFactor → Relation → Prop
  | named (names partitions : List Word) (arguments : Option (List Piece)) (ordinality : Bool)
      (tableAlias : Option TableAlias) (closing : List Piece) :
      NamesRelation (.named names partitions arguments ordinality tableAlias closing)
        ⟨".".intercalate (names.map Word.value), tableAlias.map fun a => a.name.value⟩

/-- A star, a name and a name under another name are fields. -/
inductive StandsFor : SelectItem → Field → Prop
  | star (options : List Piece) : StandsFor (.wildcard options) ⟨.wildcard, "*", none⟩
  | column (w : Word) : StandsFor (.plain (.name w)) ⟨.column, w.value, none⟩
  | renamed (w aliasName : Word) :
      StandsFor (.aliased (.name w) aliasName) ⟨.column, w.value, some aliasName.value⟩

/-- A table names the relation that is taken from it. -/
theorem namesRelation_iff {t : TableFactor} {r : Relation} :
    NamesRelation t r ↔ relation? t = some r := by
  constructor
  · rintro ⟨⟩
    rfl
  · intro h
    cases t with
    | named names partitions arguments ordinality tableAlias closing =>
        cases h
        exact .named names partitions arguments ordinality tableAlias closing
    | joined t tableAlias => cases h
    | other pieces tableAlias closing => cases h

/-- An item stands for the field that is taken from it. -/
theorem standsFor_iff {item : SelectItem} {f : Field} :
    StandsFor item f ↔ field? item = some f := by
  constructor
  · rintro (_ | _ | _) <;> rfl
  · intro h
    unfold field? at h
    split at h
    · cases h
      exact .star _
    · cases h
      exact .column _
    · cases h
      exact .renamed _ _
    · cases h

/-! ## Accounts -/

/-- Every element in order has its place among what is kept or, where it has none, a finding. -/
inductive Accounted {α β : Type} (place : α → β → Prop) (finding : α → Diagnostic) :
    List α → List β → List Diagnostic → Prop
  | nil : Accounted place finding [] [] []
  | kept {a : α} {b : β} {as : List α} {bs : List β} {ds : List Diagnostic} (h : place a b)
      (rest : Accounted place finding as bs ds) : Accounted place finding (a :: as) (b :: bs) ds
  | reported {a : α} {as : List α} {bs : List β} {ds : List Diagnostic} (h : ∀ b, ¬ place a b)
      (rest : Accounted place finding as bs ds) :
      Accounted place finding (a :: as) bs (finding a :: ds)

namespace Accounted

variable {α β : Type} {place : α → β → Prop} {finding : α → Diagnostic} {as : List α} {bs : List β}
  {ds : List Diagnostic}

/-- Everything has a place or a finding. -/
theorem length_add (h : Accounted place finding as bs ds) :
    bs.length + ds.length = as.length := by
  induction h with
  | nil => rfl
  | kept _ _ ih =>
      simp only [List.length_cons]
      omega
  | reported _ _ ih =>
      simp only [List.length_cons]
      omega

/-- All findings of an account are about elements of the list. -/
theorem exists_of_mem (h : Accounted place finding as bs ds) {d : Diagnostic} (hd : d ∈ ds) :
    ∃ a ∈ as, (∀ b, ¬ place a b) ∧ d = finding a := by
  induction h with
  | nil => cases hd
  | kept _ _ ih =>
      obtain ⟨a, ha, hplace⟩ := ih hd
      exact ⟨a, List.mem_cons_of_mem _ ha, hplace⟩
  | @reported a _ _ _ hplace _ ih =>
      rcases List.mem_cons.1 hd with rfl | hd
      · exact ⟨a, List.mem_cons_self, hplace, rfl⟩
      · obtain ⟨a', ha', hplace'⟩ := ih hd
        exact ⟨a', List.mem_cons_of_mem _ ha', hplace'⟩

/-- An account of any list is made by a function that gives each element its place. -/
theorem of_function {f : α → Option β} (hf : ∀ a b, place a b ↔ f a = some b)
    (finding : α → Diagnostic) (as : List α) :
    Accounted place finding as (as.filterMap f)
      ((as.filter fun a => (f a).isNone).map finding) := by
  induction as with
  | nil => exact .nil
  | cons a as ih =>
      cases h : f a with
      | some b =>
          rw [List.filterMap_cons_some h, List.filter_cons_of_neg (by simp [h])]
          exact .kept ((hf a b).2 h) ih
      | none =>
          rw [List.filterMap_cons_none h, List.filter_cons_of_pos (by simp [h]), List.map_cons]
          refine .reported (fun b hb => ?_) ih
          rw [hf, h] at hb
          cases hb

end Accounted

/-! ## Accounts with fewer places -/

namespace Accounted

variable {α β : Type} {place place' : α → β → Prop} {finding : α → Diagnostic} {as : List α}
  {bs bs' : List β} {ds ds' : List Diagnostic}

/-- An account keeps when the places are the same for what is accounted for. -/
theorem mono (hplace : ∀ a ∈ as, ∀ b, place a b ↔ place' a b)
    (h : Accounted place finding as bs ds) : Accounted place' finding as bs ds := by
  induction h with
  | nil => exact .nil
  | kept hb _ ih =>
      obtain ⟨ha, hrest⟩ := List.forall_mem_cons.1 hplace
      exact .kept ((ha _).1 hb) (ih hrest)
  | reported hnone _ ih =>
      obtain ⟨ha, hrest⟩ := List.forall_mem_cons.1 hplace
      exact .reported (fun b hb => hnone b ((ha b).2 hb)) (ih hrest)

/-- With fewer places at least as much is reported, and just as much only when every element that
had a place has one still. -/
theorem length_le (hplace : ∀ a b, place' a b → place a b)
    (h : Accounted place finding as bs ds) (h' : Accounted place' finding as bs' ds') :
    ds.length ≤ ds'.length ∧
      (ds'.length = ds.length → ∀ a ∈ as, (∃ b, place a b) → ∃ b, place' a b) := by
  induction h generalizing bs' ds' with
  | nil => cases h' with | nil => simp
  | kept hb _ ih =>
      cases h' with
      | kept hb' rest' =>
          obtain ⟨hle, hsame⟩ := ih rest'
          refine ⟨hle, fun hlength => List.forall_mem_cons.2 ⟨fun _ => ⟨_, hb'⟩, hsame hlength⟩⟩
      | reported _ rest' =>
          obtain ⟨hle, -⟩ := ih rest'
          simp only [List.length_cons]
          exact ⟨by omega, fun hlength => by omega⟩
  | reported hnone _ ih =>
      cases h' with
      | kept hb' _ => exact absurd (hplace _ _ hb') (hnone _)
      | reported _ rest' =>
          obtain ⟨hle, hsame⟩ := ih rest'
          simp only [List.length_cons]
          refine ⟨by omega, fun hlength => List.forall_mem_cons.2 ⟨?_, hsame (by omega)⟩⟩
          rintro ⟨b, hb⟩
          exact absurd hb (hnone b)

/-- Some of the elements are plain, and all others have a place. When only plain elements keep their
place, the same account is one of these places exactly when all elements are plain. -/
theorem narrow_iff {plain : α → Prop} (hplace : ∀ a b, place' a b ↔ place a b ∧ plain a)
    (hplain : ∀ a, plain a ∨ ∃ b, place a b) (h : Accounted place finding as bs ds) :
    Accounted place' finding as bs ds ↔ ∀ a ∈ as, plain a := by
  have hwider : ∀ a b, place' a b → place a b := fun a b hb => ((hplace a b).1 hb).1
  constructor
  · intro h' a ha
    rcases hplain a with ha' | hplaced
    · exact ha'
    · obtain ⟨b, hb⟩ := (h.length_le hwider h').2 rfl a ha hplaced
      exact ((hplace a b).1 hb).2
  · intro hall
    exact h.mono fun a ha b => ⟨fun hb => (hplace a b).2 ⟨hb, hall a ha⟩, hwider a b⟩

end Accounted

/-! ## What a statement visits and lists -/

/-- The tables of a list in source order: of every entry its own table, then those joined to it. -/
def inSourceOrder : List TableWithJoins → List TableFactor
  | [] => []
  | .mk first joins :: rest =>
      first :: (joins.map fun | .mk _ right _ => right) ++ inSourceOrder rest

/-- Tables are visited in the order of the source. -/
theorem factors_eq_inSourceOrder (tables : List TableWithJoins) :
    factors tables = inSourceOrder tables := by
  induction tables with
  | nil => rfl
  | cons t rest ih =>
      obtain ⟨first, joins⟩ := t
      have hjoins : (joins.map Join.right) = joins.map fun | .mk _ right _ => right :=
        List.map_congr_left fun ⟨_, _, _⟩ _ => rfl
      change first :: joins.map Join.right ++ factors rest = _
      rw [hjoins, ih, inSourceOrder]

/-- The select at the very left of a query body. -/
inductive StartsWith : QueryBody → Select → Prop
  | select (s : Select) : StartsWith (.select s) s
  | query {body : QueryBody} {s : Select} (opening closing : List Piece)
      (h : StartsWith body s) : StartsWith (.query (.mk opening body closing)) s
  | combined {left : QueryBody} {s : Select} (op : String) (right : QueryBody)
      (h : StartsWith left s) : StartsWith (.combined left op right) s

theorem StartsWith.leadingSelect {body : QueryBody} {s : Select} (h : StartsWith body s) :
    leadingSelect body = some s := by
  induction h with
  | select s => simp [Shape.leadingSelect]
  | query opening closing _ ih => simpa [Shape.leadingSelect] using ih
  | combined op right _ ih => simpa [Shape.leadingSelect] using ih

/-- A body starts with the select that is taken from it. -/
theorem startsWith_of_leadingSelect {body : QueryBody} {s : Select}
    (h : leadingSelect body = some s) : StartsWith body s := by
  fun_induction leadingSelect body with
  | case1 s' =>
      cases h
      exact .select s
  | case2 opening body closing ih => exact .query opening closing (ih h)
  | case3 left op right ih => exact .combined op right (ih h)
  | case4 => cases h

/-- A statement of some kind that visits some tables and lists some items. An insert visits its
target only. -/
inductive Visits : Statement → StatementKind → List TableFactor → List SelectItem → Prop
  | select {body : QueryBody} {words into : String} {leading clauses : List Piece}
      {items : List SelectItem} {sources : List TableWithJoins} (opening closing : List Piece)
      (h : StartsWith body (.mk words leading items into sources clauses)) :
      Visits (.query (.mk opening body closing)) .select (inSourceOrder sources) items
  | insert (opening : String) (target : List Word) (aliasName : Option Word) (rows : List Piece)
      (returning : Option (List SelectItem)) :
      Visits (.insert (.mk opening target aliasName rows none returning)) .insert
        [.named target [] none false (aliasName.map (⟨·, []⟩)) []] (returning.getD [])
  | upsert (opening : String) (target : List Word) (aliasName : Option Word)
      (rows conflict : List Piece) (returning : Option (List SelectItem)) :
      Visits (.insert (.mk opening target aliasName rows (some conflict) returning)) .upsert
        [.named target [] none false (aliasName.map (⟨·, []⟩)) []] (returning.getD [])
  | update (opening : String) (target : TableWithJoins) (changes : List Piece)
      (returning : Option (List SelectItem)) :
      Visits (.update (.mk opening target changes returning)) .update (inSourceOrder [target])
        (returning.getD [])
  | delete (targets : List TableWithJoins) (returning : Option (List SelectItem))
      (clauses : List Piece) :
      Visits (.delete ⟨targets, returning, clauses⟩) .delete (inSourceOrder targets)
        (returning.getD [])

/-! ## The account of a statement -/

/-- The finding about a table that has no place. -/
def skippedTable (t : TableFactor) : Diagnostic := skipped "table reference" t.text

/-- The finding about an item that has no place. -/
def skippedItem (item : SelectItem) : Diagnostic := skipped "projection" item.text

/-- Every table is a relation of the shape or has a finding. -/
theorem accounted_relations (tables : List TableWithJoins) :
    Accounted NamesRelation skippedTable (inSourceOrder tables) (relations tables)
      (skippedTables tables) := by
  rw [relations, skippedTables, factors_eq_inSourceOrder]
  exact .of_function (fun t r => @namesRelation_iff t r) skippedTable _

/-- Every item is a field of the shape or has a finding. -/
theorem accounted_fields (items : List SelectItem) :
    Accounted StandsFor skippedItem items (fields items) (skippedItems items) :=
  .of_function (fun item f => @standsFor_iff item f) skippedItem items

/-- The shape of a statement and the findings about it are accounts of what it visits and of what it
lists, the tables before the items. -/
theorem accounted_of_visits (sql : String) {s : Statement} {kind : StatementKind}
    {tables : List TableFactor} {items : List SelectItem} (h : Visits s kind tables items) :
    ∃ rs fs ds es, ofStatement sql s = .ok ⟨⟨kind, fs, rs⟩, ds ++ es⟩ ∧
      Accounted NamesRelation skippedTable tables rs ds ∧
      Accounted StandsFor skippedItem items fs es := by
  cases h with
  | select opening closing hselect =>
      refine ⟨_, _, _, _, ?_, accounted_relations _, accounted_fields _⟩
      rw [ofStatement, ofQuery, Query.body, hselect.leadingSelect]
      rfl
  | insert opening target aliasName rows returning =>
      refine ⟨_, _, [], _, rfl, ?_, accounted_fields _⟩
      have htarget := NamesRelation.named target [] none false
        (aliasName.map (⟨·, []⟩ : Word → TableAlias)) []
      rw [Option.map_map] at htarget
      exact .kept htarget .nil
  | upsert opening target aliasName rows conflict returning =>
      refine ⟨_, _, [], _, rfl, ?_, accounted_fields _⟩
      have htarget := NamesRelation.named target [] none false
        (aliasName.map (⟨·, []⟩ : Word → TableAlias)) []
      rw [Option.map_map] at htarget
      exact .kept htarget .nil
  | update opening target changes returning =>
      exact ⟨_, _, _, _, rfl, accounted_relations _, accounted_fields _⟩
  | delete targets returning clauses =>
      exact ⟨_, _, _, _, rfl, accounted_relations _, accounted_fields _⟩

/-- A query that starts with no select leaves one finding and has an empty shape. -/
theorem ofStatement_of_not_startsWith (sql : String) {q : Query}
    (h : ∀ select, ¬ StartsWith q.body select) :
    ofStatement sql (.query q) =
      .ok ⟨⟨.select, [], []⟩, [skipped "query body" q.body.text]⟩ := by
  have hnone : leadingSelect q.body = none :=
    Option.eq_none_iff_forall_ne_some.2 fun select hselect =>
      h select (startsWith_of_leadingSelect hselect)
  rw [ofStatement, ofQuery, hnone]

end TypedSql.Shape

namespace TypedSql.Batch

open Shape

/-! ## Accounts in a batch -/

section

variable {ε α β : Type} (step : α → Except ε (β × List Diagnostic))

/-- The findings that there are after some steps. -/
def findingsAfter (before : List Diagnostic) (xs : List α) : List Diagnostic :=
  ((inTurn step before xs).getLast?.map Progress.findings).getD before

/-- The steps after some others start with the findings of these. -/
theorem inTurn_append (before : List Diagnostic) (xs ys : List α) :
    inTurn step before (xs ++ ys) =
      inTurn step before xs ++ inTurn step (findingsAfter step before xs) ys := by
  induction xs generalizing before with
  | nil => rfl
  | cons x xs ih =>
      have hlast : ∀ (p : Progress ε β),
          findingsAfter step p.findings xs =
            (((p :: inTurn step p.findings xs).getLast?).map Progress.findings).getD before := by
        intro p
        rw [findingsAfter, List.getLast?_cons]
        cases (inTurn step p.findings xs).getLast? <;> rfl
      cases hx : step x with
      | ok found =>
          have hp := hlast ⟨.ok found.1, before ++ found.2⟩
          simp only [List.cons_append, inTurn, hx, ih, findingsAfter] at hp ⊢
          rw [hp]
      | error e =>
          have hp := hlast ⟨.error e, before⟩
          simp only [List.cons_append, inTurn, hx, ih, findingsAfter] at hp ⊢
          rw [hp]

/-- What there is after a step that comes after some others. -/
theorem getElem?_inTurn (before : List Diagnostic) (xs ys : List α) {x : α} {y : β}
    {findings : List Diagnostic} (h : step x = .ok (y, findings)) :
    (inTurn step before (xs ++ x :: ys))[xs.length]? =
      some ⟨.ok y, findingsAfter step before xs ++ findings⟩ := by
  rw [inTurn_append, List.getElem?_append_right (Nat.le_of_eq (length_inTurn ..)), length_inTurn,
    Nat.sub_self]
  simp [inTurn, h]

end

/-- The step that finds the shape of a statement. -/
def shapeStep (sql : String) (s : Statement) :
    Except Unsupported (StatementShape × List Diagnostic) :=
  (ofStatement sql s).map fun found => (found.shape, found.findings)

/-- Whatever there was before and whichever statements came first, of a statement that visits some
tables and lists some items every table and every item is accounted for: as a relation or a field of
its shape in order, or else by one finding in order, after all earlier findings. A query that starts
with no select leaves one finding about all of it. -/
theorem shapes_accounted (sql : String) (before : List Diagnostic) (earlier rest : List Statement)
    (s : Statement) :
    (∀ kind tables items, Visits s kind tables items →
      ∃ rs fs ds es, Accounted NamesRelation skippedTable tables rs ds ∧
        Accounted StandsFor skippedItem items fs es ∧
        (inTurn (shapeStep sql) before (earlier ++ s :: rest))[earlier.length]? =
          some ⟨.ok ⟨kind, fs, rs⟩,
            findingsAfter (shapeStep sql) before earlier ++ (ds ++ es)⟩ ∧
        (∀ d ∈ ds ++ es, d.code = .sqlUnsupportedShape ∧ d.severity = .info) ∧
        rs.length + fs.length + (ds ++ es).length = tables.length + items.length) ∧
    (∀ q, s = .query q → (∀ select, ¬ StartsWith q.body select) →
      ∃ d, d.code = .sqlUnsupportedShape ∧ d.severity = .info ∧
        (inTurn (shapeStep sql) before (earlier ++ s :: rest))[earlier.length]? =
          some ⟨.ok ⟨.select, [], []⟩, findingsAfter (shapeStep sql) before earlier ++ [d]⟩) := by
  constructor
  · intro kind tables items h
    obtain ⟨rs, fs, ds, es, hshape, htables, hitems⟩ := accounted_of_visits sql h
    have hstep : shapeStep sql s = .ok (⟨kind, fs, rs⟩, ds ++ es) := by
      rw [shapeStep, hshape]
      rfl
    refine ⟨rs, fs, ds, es, htables, hitems, getElem?_inTurn _ _ _ _ hstep, ?_, ?_⟩
    · intro d hd
      rcases List.mem_append.1 hd with hd | hd
      · obtain ⟨t, _, _, rfl⟩ := htables.exists_of_mem hd
        exact ⟨rfl, rfl⟩
      · obtain ⟨item, _, _, rfl⟩ := hitems.exists_of_mem hd
        exact ⟨rfl, rfl⟩
    · have htotal := htables.length_add
      have hlisted := hitems.length_add
      rw [List.length_append]
      omega
  · rintro q rfl h
    have hstep : shapeStep sql (.query q) =
        .ok (⟨.select, [], []⟩, [skipped "query body" q.body.text]) := by
      rw [shapeStep, ofStatement_of_not_startsWith sql h]
      rfl
    exact ⟨_, rfl, rfl, getElem?_inTurn _ _ _ _ hstep⟩

/-- Of a select with a derived table, a joined one and three items, one table and one item are
reported, whatever came before. A list of rows leaves one finding. -/
theorem shapes_accounted_select :
    let id : Word := ⟨"id", none⟩
    let sources : List TableWithJoins :=
      [.mk (.other [.text "(SELECT 1)"] (some ⟨⟨"sub", none⟩, []⟩) [])
        [.mk "JOIN" (.named [⟨"shop", none⟩, ⟨"products", none⟩] [] none false none []) []]]
    let items : List SelectItem :=
      [.plain (.name id), .qualifiedWildcard [⟨"p", none⟩] [], .aliased (.name id) ⟨"key", none⟩]
    let select : Statement := .query (.mk [] (.select (.mk "" [] items "" sources [])) [])
    let values : Statement := .query (.mk [] (.other [.text "VALUES (1)"]) [])
    (∃ rs fs ds es, Accounted NamesRelation skippedTable (inSourceOrder sources) rs ds ∧
      Accounted StandsFor skippedItem items fs es ∧
      (inTurn (shapeStep "") [] [.command "begin", select, values])[1]? =
        some ⟨.ok ⟨.select, fs, rs⟩, ds ++ es⟩ ∧
      rs.length + fs.length + (ds ++ es).length = 5) ∧
    ∃ d, (inTurn (shapeStep "") [] [values])[0]? = some ⟨.ok ⟨.select, [], []⟩, [d]⟩ := by
  intro id sources items select values
  have hvisits : Visits select .select (inSourceOrder sources) items := .select [] [] (.select _)
  have hvalues : ∀ s, ¬ StartsWith (.other [.text "VALUES (1)"]) s := by
    rintro s ⟨⟩
  constructor
  · obtain ⟨rs, fs, ds, es, htables, hitems, hnow, -, hcount⟩ :=
      (shapes_accounted "" [] [.command "begin"] [values] select).1 _ _ _ hvisits
    exact ⟨rs, fs, ds, es, htables, hitems, hnow, hcount⟩
  · obtain ⟨d, -, -, hnow⟩ := (shapes_accounted "" [] [] [] values).2 _ rfl hvalues
    exact ⟨d, hnow⟩

end TypedSql.Batch
