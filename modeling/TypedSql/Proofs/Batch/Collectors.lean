import TypedSql.Collector
import TypedSql.Proofs.Shape.Accounting

namespace TypedSql

/-! # One collector for all statements

A collector that is used for one statement after another gives for each what a new one would give,
and holds the findings of new ones put together. For that a step may only add to what is held, which
is shown by telling what every step leaves after whatever was held before: the shape or the outputs
that are found without a collector, and their findings at the end.
-/

/-! ## What steps leave -/

namespace Collecting

open Batch

section

variable {ε α β : Type} {held : List Diagnostic}

/-- A value that is given adds nothing to what is held. -/
theorem after_pure (a : α) : (pure a : Collecting ε α).after held = ⟨.ok a, held⟩ := rfl

/-- A failure leaves what is held. -/
theorem after_throw (e : ε) : (throw e : Collecting ε α).after held = ⟨.error e, held⟩ := rfl

/-- A finding that is held comes after those held before. -/
theorem after_hold_bind (d : Diagnostic) (f : Unit → Collecting ε α) :
    (hold d >>= f).after held = (f ()).after (held ++ [d]) := rfl

/-- The second of two steps starts with what the first one has left. -/
theorem after_bind {x : Collecting ε α} {f : α → Collecting ε β} :
    (x >>= f).after held = match x.after held with
      | ⟨.ok a, held'⟩ => (f a).after held'
      | ⟨.error e, held'⟩ => ⟨.error e, held'⟩ := by
  have hrun : (x >>= f).after held =
      ⟨((ExceptT.bindCont f (x.run.run held).1).run (x.run.run held).2).1,
        ((ExceptT.bindCont f (x.run.run held).1).run (x.run.run held).2).2⟩ := rfl
  rw [hrun]
  unfold after
  cases (x.run.run held).1 <;> rfl

theorem after_bind_of_ok {x : Collecting ε α} {f : α → Collecting ε β} {a : α}
    {held' : List Diagnostic} (h : x.after held = ⟨.ok a, held'⟩) :
    (x >>= f).after held = (f a).after held' := by
  rw [after_bind, h]

theorem after_bind_of_error {x : Collecting ε α} {f : α → Collecting ε β} {e : ε}
    {held' : List Diagnostic} (h : x.after held = ⟨.error e, held'⟩) :
    (x >>= f).after held = ⟨.error e, held'⟩ := by
  rw [after_bind, h]

/-- Elements that are taken one by one, each for what it gives and what it leaves, are taken as a
whole for all of that in order. -/
theorem after_foldlM {take : List β → α → Collecting ε (List β)}
    {given : α → List β} {left : α → List Diagnostic}
    (htake : ∀ bs a held, (take bs a).after held = ⟨.ok (bs ++ given a), held ++ left a⟩)
    (as : List α) (bs : List β) (held : List Diagnostic) :
    (as.foldlM take bs).after held = ⟨.ok (bs ++ as.flatMap given), held ++ as.flatMap left⟩ := by
  induction as generalizing bs held with
  | nil => simp [after_pure]
  | cons a as ih =>
      rw [List.foldlM_cons, after_bind_of_ok (htake bs a held), ih]
      simp only [List.flatMap_cons, List.append_assoc]

/-- Elements that have a place are given it in order, and all others leave a finding in order. -/
theorem after_foldlM_filterMap {take : List β → α → Collecting ε (List β)}
    {place? : α → Option β} {finding : α → Diagnostic}
    (hplaced : ∀ bs a b held, place? a = some b →
      (take bs a).after held = ⟨.ok (bs ++ [b]), held⟩)
    (hleft : ∀ bs a held, place? a = none →
      (take bs a).after held = ⟨.ok bs, held ++ [finding a]⟩)
    (as : List α) (bs : List β) (held : List Diagnostic) :
    (as.foldlM take bs).after held =
      ⟨.ok (bs ++ as.filterMap place?),
        held ++ (as.filter fun a => (place? a).isNone).map finding⟩ := by
  induction as generalizing bs held with
  | nil => simp [after_pure]
  | cons a as ih =>
      rw [List.foldlM_cons]
      cases hplace : place? a with
      | none =>
          rw [after_bind_of_ok (hleft bs a held hplace), ih]
          simp [hplace]
      | some b =>
          rw [after_bind_of_ok (hplaced bs a b held hplace), ih]
          simp [hplace]

end

end Collecting

/-! ## Steps of a collector -/

namespace Batch

/-- What there is after a step that was taken without a collector, when its findings come after
those that are held. -/
def leave {ε β : Type} (held : List Diagnostic) :
    Except ε (β × List Diagnostic) → Progress ε β
  | .ok (b, findings) => ⟨.ok b, held ++ findings⟩
  | .error e => ⟨.error e, held⟩

end Batch

namespace Shape

open Collecting Batch

variable (held : List Diagnostic)

/-- Joined tables are taken one by one: the first, and that of each join. -/
theorem takeJoined_eq (relations : List Relation) (t : TableWithJoins) :
    takeJoined relations t = (t.first :: t.joins.map Join.right).foldlM takeTable relations := by
  rw [List.foldlM_cons]
  exact bind_congr fun relations => List.foldlM_map.symm

/-- The tables of a clause are taken one by one. -/
theorem foldlM_takeJoined (tables : List TableWithJoins) (relations : List Relation) :
    tables.foldlM takeJoined relations = (factors tables).foldlM takeTable relations := by
  induction tables generalizing relations with
  | nil => rfl
  | cons t rest ih =>
      have hfactors : factors (t :: rest) = (t.first :: t.joins.map Join.right) ++ factors rest :=
        rfl
      rw [hfactors, List.foldlM_append, List.foldlM_cons, ← takeJoined_eq]
      exact bind_congr fun relations => ih relations

/-- Taking tables adds their relations and holds what is found about the others. -/
theorem after_takeTables (before : List Relation) (tables : List TableWithJoins) :
    (tables.foldlM takeJoined before).after held =
      ⟨.ok (before ++ relations tables), held ++ skippedTables tables⟩ := by
  rw [foldlM_takeJoined]
  refine after_foldlM_filterMap ?_ ?_ (factors tables) before held
  · intro relations t relation held h
    simp only [takeTable, h, after_pure]
  · intro relations t held h
    simp only [takeTable, h, after_hold_bind, after_pure]

/-- Taking items adds their fields and holds what is found about the others. -/
theorem after_takeItems (before : List Field) (items : List SelectItem) :
    (items.foldlM takeItem before).after held =
      ⟨.ok (before ++ fields items), held ++ skippedItems items⟩ := by
  refine after_foldlM_filterMap ?_ ?_ items before held
  · intro fields item field held h
    simp only [takeItem, h, after_pure]
  · intro fields item held h
    simp only [takeItem, h, after_hold_bind, after_pure]

/-- Collecting a statement from its parts gives its shape and holds its findings after those held
before. -/
theorem after_collectParts (kind : StatementKind) (tables : List TableWithJoins)
    (items : List SelectItem) :
    (collectParts kind tables items).after held =
      ⟨.ok (ofParts kind tables items).shape, held ++ (ofParts kind tables items).findings⟩ := by
  unfold collectParts
  rw [after_bind_of_ok (after_takeTables held [] tables),
    after_bind_of_ok (after_takeItems _ [] items), after_pure, List.append_assoc]
  rfl

/-- A collector gives the shape of a statement and adds the findings about it; for a statement
without a shape it adds nothing. -/
theorem after_collect (sql : String) (s : Statement) :
    (collect sql s).after held = leave held (shapeStep sql s) := by
  cases s with
  | query q =>
      have hquery : ofStatement sql (.query q) = .ok (ofQuery q) := rfl
      rw [shapeStep, hquery, ofQuery, collect]
      cases leadingSelect q.body with
      | none => rfl
      | some select => exact after_collectParts held .select _ _
  | insert i =>
      obtain ⟨opening, target, aliasName, rows, conflict, returning⟩ := i
      rw [collect, after_bind_of_ok (after_takeItems held [] _)]
      rfl
  | update u =>
      obtain ⟨opening, target, changes, returning⟩ := u
      exact after_collectParts held .update _ _
  | delete d => exact after_collectParts held .delete _ _
  | command kind => rfl

end Shape

namespace Resolve

open Collecting Batch

variable (held : List Diagnostic)

/-- Taking relations looks up each of them, and fails at the first that is not there. -/
theorem after_takeRelations (schema : Schema) (relations : List Relation)
    (before : List (String × Columns)) :
    (relations.foldlM (takeRelation schema) before).after held =
      match tables schema relations with
      | .ok found => ⟨.ok (before ++ found), held⟩
      | .error e => ⟨.error e, held⟩ := by
  induction relations generalizing before with
  | nil => simp [after_pure, tables]
  | cons relation rest ih =>
      rw [List.foldlM_cons, tables]
      cases htable : schema.table? relation.name with
      | none =>
          -- The failure comes before any field, so nothing has been added.
          have hfail : (takeRelation schema before relation).after held =
              ⟨.error ⟨relation.name⟩, held⟩ := by
            simp only [takeRelation, htable, after_throw]
          rw [after_bind_of_error hfail]
      | some columns =>
          have htake : (takeRelation schema before relation).after held =
              ⟨.ok (before ++ [(relation.name, columns)]), held⟩ := by
            simp only [takeRelation, htable, after_pure]
          rw [after_bind_of_ok htake, ih]
          cases tables schema rest <;> simp [Except.map]

/-- Taking a field adds its outputs and holds what is found about it. -/
theorem after_takeField (tables : List (String × Columns)) (outputs : List OutputField)
    (field : Field) (held : List Diagnostic) :
    (takeField tables outputs field).after held =
      ⟨.ok (outputs ++ (resolveField tables field).1),
        held ++ (resolveField tables field).2⟩ := by
  unfold takeField resolveField
  cases field.kind with
  | wildcard => simp [after_pure]
  | column =>
      unfold resolveColumn
      dsimp only
      cases tables.head?.bind fun table => table.2.get? field.name with
      | none => rfl
      | some type => simp [after_pure]

/-- A collector gives the outputs of a statement and adds the findings about its columns; for a
statement that names an undeclared relation it adds nothing. -/
theorem after_collect (schema : Schema) (shape : StatementShape) :
    (collect schema shape).after held = leave held (resolve schema shape) := by
  unfold collect resolve
  have hrelations := after_takeRelations held schema shape.relations []
  cases hfound : tables schema shape.relations with
  | error e =>
      rw [hfound] at hrelations
      rw [after_bind_of_error hrelations]
      rfl
  | ok found =>
      rw [hfound] at hrelations
      rw [after_bind_of_ok hrelations, List.nil_append, after_foldlM (after_takeField found)]
      simp [leave, Except.map, List.flatMap_map]

end Resolve

/-! ## Runs of a collector -/

namespace Batch

section

variable {ε α β : Type} {step : α → Collecting ε β}
  {plain : α → Except ε (β × List Diagnostic)}

/-- The first statement is collected before the others, which start with what it has left. -/
theorem inTurn_cons (held : List Diagnostic) (x : α) (xs : List α) :
    inTurn plain held (x :: xs) =
      leave held (plain x) :: inTurn plain (leave held (plain x)).findings xs := by
  rw [inTurn]
  cases plain x <;> rfl

/-- Steps that add what is found without a collector go through a list as a batch does. -/
theorem collecting_inTurn_eq (h : ∀ x held, (step x).after held = leave held (plain x))
    (held : List Diagnostic) (xs : List α) :
    Collecting.inTurn step held xs = inTurn plain held xs := by
  induction xs generalizing held with
  | nil => rfl
  | cons x xs ih => rw [Collecting.inTurn, inTurn_cons, h, ih]

/-- What a step leaves after findings that are held already is what it leaves on its own, put after
them. -/
theorem after_eq_of_leave (h : ∀ x held, (step x).after held = leave held (plain x))
    (x : α) (held : List Diagnostic) :
    (step x).after held =
      ⟨((step x).after []).result, held ++ ((step x).after []).findings⟩ := by
  rw [h, h]
  cases plain x with
  | error e => simp [leave]
  | ok found => simp [leave]

/-- The step that comes after some others with one collector gives what a new collector gives, and
what is held then is what was held at first with the findings of new collectors, in order. -/
theorem getElem?_collecting_inTurn (h : ∀ x held, (step x).after held = leave held (plain x))
    (held : List Diagnostic) (xs : List α) (i : Nat) :
    (Collecting.inTurn step held xs)[i]? = xs[i]?.map fun x =>
      ⟨((step x).after []).result,
        held ++ (xs.take (i + 1)).flatMap fun y => ((step y).after []).findings⟩ := by
  induction xs generalizing held i with
  | nil => simp [Collecting.inTurn]
  | cons x xs ih =>
      rw [Collecting.inTurn, after_eq_of_leave h]
      cases i with
      | zero => simp
      | succ i => simp [ih]

/-- A step that fails adds nothing. -/
theorem findings_of_error (h : ∀ x held, (step x).after held = leave held (plain x))
    (x : α) (held : List Diagnostic) :
    (∃ b, ((step x).after held).result = .ok b) ∨ ((step x).after held).findings = held := by
  rw [h]
  cases plain x with
  | error e => exact .inr rfl
  | ok found => exact .inl ⟨found.1, rfl⟩

end

/-- Using one collector for all statements is the same as using a new one for each. Whatever is
held at first, for every list of statements with their texts, and of shapes under every schema: the
result of each step is the one that a new collector gives, what is held after it is what was held at
first with the findings of new collectors for the steps so far, in order, and a step that fails adds
none. So a batch may be told without a collector. -/
theorem reused_eq_fresh (schema : Schema) (held : List Diagnostic) :
    (∀ (calls : List (String × Statement)) (i : Nat),
      (Collecting.inTurn (fun c => Shape.collect c.1 c.2) held calls)[i]? =
        calls[i]?.map fun c =>
          ⟨((Shape.collect c.1 c.2).after []).result,
            held ++ (calls.take (i + 1)).flatMap fun c =>
              ((Shape.collect c.1 c.2).after []).findings⟩) ∧
    (∀ (all : List StatementShape) (i : Nat),
      (Collecting.inTurn (Resolve.collect schema) held all)[i]? =
        all[i]?.map fun shape =>
          ⟨((Resolve.collect schema shape).after []).result,
            held ++ (all.take (i + 1)).flatMap fun shape =>
              ((Resolve.collect schema shape).after []).findings⟩) ∧
    (∀ sql s, (∃ shape, ((Shape.collect sql s).after held).result = .ok shape) ∨
      ((Shape.collect sql s).after held).findings = held) ∧
    (∀ shape, (∃ outputs, ((Resolve.collect schema shape).after held).result = .ok outputs) ∨
      ((Resolve.collect schema shape).after held).findings = held) ∧
    (∀ sql statements, Collecting.inTurn (Shape.collect sql) [] statements =
      shapes sql statements) ∧
    ∀ all, Collecting.inTurn (Resolve.collect schema) [] all = outputs schema all := by
  have hshape : ∀ sql s held, (Shape.collect sql s).after held = leave held (shapeStep sql s) :=
    fun sql s held => Shape.after_collect held sql s
  have hcalls : ∀ (c : String × Statement) held,
      (Shape.collect c.1 c.2).after held = leave held (shapeStep c.1 c.2) :=
    fun c held => hshape c.1 c.2 held
  have hresolve : ∀ shape held,
      (Resolve.collect schema shape).after held = leave held (Resolve.resolve schema shape) :=
    fun shape held => Resolve.after_collect held schema shape
  refine ⟨?_, ?_, ?_, ?_, ?_, ?_⟩
  · exact getElem?_collecting_inTurn hcalls held
  · exact getElem?_collecting_inTurn hresolve held
  · exact fun sql s => findings_of_error (hshape sql) s held
  · exact fun shape => findings_of_error hresolve shape held
  · exact fun sql statements => collecting_inTurn_eq (hshape sql) [] statements
  · exact fun all => collecting_inTurn_eq hresolve [] all

end Batch

end TypedSql
