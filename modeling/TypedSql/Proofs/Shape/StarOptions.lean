import Mathlib.Data.List.Basic
import TypedSql.Proofs.Batch.Collectors
import TypedSql.Proofs.Shape.NamedQueries

/-! # Stars that are more than a star

A star is taken for all columns, whatever its options say about them. So only lists in which no star
has options have the fields that their plain items stand for, and a column that a star leaves out is
among the outputs all the same wherever a relation of the statement declares it. Where a dialect has
no such options, every list that is read is one of these.
-/

namespace TypedSql.Grammar

/-! ## Lists that are read -/

/-- What a reading gives has a property, wherever it starts. -/
def Gives {α : Type} (P : α → Prop) (p : Parse α) : Prop :=
  ∀ left rest a, p.run left = (.ok a, rest) → P a

section

variable {α : Type} {P : α → Prop} {p : Parse α}

theorem gives_rowFrom (more : Parse Bool) (hp : Gives P p) (fuel : Nat) {done : List α}
    (hdone : ∀ a ∈ done, P a) : Gives (fun as => ∀ a ∈ as, P a) (rowFrom p more fuel done) := by
  induction fuel generalizing done with
  | zero =>
      intro left rest as hrun
      cases hrun
      simpa using hdone
  | succ fuel ih =>
      intro left rest as hrun
      rw [rowFrom] at hrun
      obtain ⟨a, between, ha, hrun⟩ := run_bind_eq_ok.1 hrun
      obtain ⟨goesOn, between', -, hrun⟩ := run_bind_eq_ok.1 hrun
      have hnow : ∀ b ∈ a :: done, P b := List.forall_mem_cons.2 ⟨hp left between a ha, hdone⟩
      cases goesOn with
      | true => exact ih hnow between' rest as hrun
      | false =>
          cases hrun
          simpa only [List.mem_reverse] using hnow

theorem gives_rowWhile (more : Parse Bool) (hp : Gives P p) :
    Gives (fun as => ∀ a ∈ as, P a) (rowWhile p more) := by
  intro left rest as hrun
  obtain ⟨n, between, -, hrun⟩ := run_bind_eq_ok.1 hrun
  exact gives_rowFrom more hp _ (by simp) between rest as hrun

end

/-- A star takes no options in most dialects. -/
theorem starOptions_eq {inner : Level} (hbigquery : inner.dialect ≠ .bigquery)
    (hansi : inner.dialect ≠ .ansi) : starOptions inner = pure [] := by
  simp [starOptions, hbigquery, hansi]

end TypedSql.Grammar

namespace TypedSql.Shape

open Collecting

/-! ## Plain items -/

/-- A plain item is a star alone, a name or a name under another name, and stands for that field. -/
inductive PlainItem : SelectItem → Field → Prop
  | star : PlainItem (.wildcard []) ⟨.wildcard, "*", none⟩
  | column (w : Word) : PlainItem (.plain (.name w)) ⟨.column, w.value, none⟩
  | renamed (w aliasName : Word) :
      PlainItem (.aliased (.name w) aliasName) ⟨.column, w.value, some aliasName.value⟩

/-- Nothing comes with the star, where an item is one. -/
def NoOptions : SelectItem → Prop
  | .wildcard options => options = []
  | .qualifiedWildcard _ _ => True
  | .plain _ => True
  | .aliased _ _ => True

theorem plainItem_iff {item : SelectItem} {f : Field} :
    PlainItem item f ↔ StandsFor item f ∧ NoOptions item := by
  constructor
  · rintro (_ | w | ⟨w, aliasName⟩)
    · exact ⟨.star [], rfl⟩
    · exact ⟨.column w, trivial⟩
    · exact ⟨.renamed w aliasName, trivial⟩
  · rintro ⟨hfield, hplain⟩
    cases hfield with
    | star options =>
        cases hplain
        exact .star
    | column w => exact .column w
    | renamed w aliasName => exact .renamed w aliasName

theorem noOptions_or_standsFor (item : SelectItem) : NoOptions item ∨ ∃ f, StandsFor item f := by
  cases item with
  | wildcard options => exact .inr ⟨_, .star options⟩
  | qualifiedWildcard names options => exact .inl trivial
  | plain e => exact .inl trivial
  | aliased e aliasName => exact .inl trivial

/-- Fields and findings that account for all stars account for the plain ones exactly when there are
no others. -/
theorem accounted_plainItem_iff {items : List SelectItem} {fs : List Field} {ds : List Diagnostic}
    (h : Accounted StandsFor skippedItem items fs ds) :
    Accounted PlainItem skippedItem items fs ds ↔ ∀ item ∈ items, NoOptions item :=
  h.narrow_iff (fun _ _ => plainItem_iff) noOptions_or_standsFor

/-- In a dialect whose stars take no options, no item that is read has any. -/
theorem gives_noOptions {inner : Grammar.Level} (hbigquery : inner.dialect ≠ .bigquery)
    (hansi : inner.dialect ≠ .ansi) : Grammar.Gives NoOptions (Grammar.selectItem inner) := by
  intro left rest item hrun
  rw [Grammar.selectItem, Grammar.starOptions_eq hbigquery hansi] at hrun
  obtain ⟨found, between, -, hrun⟩ := Grammar.run_bind_eq_ok.1 hrun
  cases found with
  | star =>
      cases hrun
      rfl
  | qualified names =>
      cases hrun
      trivial
  | expr e =>
      simp only at hrun
      split at hrun
      · cases hrun
      · obtain ⟨aliasName, between', -, hrun⟩ := Grammar.run_bind_eq_ok.1 hrun
        cases aliasName <;> cases hrun <;> trivial

/-- There a select list or a list of returned items has no star with options. -/
theorem noOptions_of_run {inner : Grammar.Level} (hbigquery : inner.dialect ≠ .bigquery)
    (hansi : inner.dialect ≠ .ansi) {left rest : List Lexeme} {items : List SelectItem}
    (h : (Grammar.selectList inner).run left = (.ok items, rest) ∨
      (Grammar.selectItems inner).run left = (.ok items, rest)) :
    ∀ item ∈ items, NoOptions item := by
  have hitem := gives_noOptions hbigquery hansi
  rcases h with h | h
  · exact Grammar.gives_rowWhile _ hitem left rest items h
  · exact Grammar.gives_rowWhile _ hitem left rest items h

/-! ## Columns that a star leaves out -/

/-- The options of a star name a column that is not wanted, alone or in a list. -/
inductive LeavesOut : SelectItem → String → Prop
  | except {options : List Piece} {names : List Word} {w : Word}
      (h : .text (" EXCEPT (" ++ listed names ++ ")") ∈ options) (hw : w ∈ names) :
      LeavesOut (.wildcard options) w.value
  | exclude {options : List Piece} {w : Word} (h : .text (" EXCLUDE " ++ w.nameText) ∈ options) :
      LeavesOut (.wildcard options) w.value
  | excludeAll {options : List Piece} {names : List Word} {w : Word}
      (h : .text (" EXCLUDE (" ++ listed names ++ ")") ∈ options) (hw : w ∈ names) :
      LeavesOut (.wildcard options) w.value

/-- The outputs that a statement has on account of one of its items. -/
def outputsOf (tables : List (String × Columns)) (item : SelectItem) : List OutputField :=
  (field? item).toList.flatMap fun field => (Resolve.resolveField tables field).1

section

variable {tables : List (String × Columns)} {item : SelectItem} {column : String}

/-- A star that leaves a column out lists as much as any other star. -/
theorem LeavesOut.outputsOf (h : LeavesOut item column) :
    outputsOf tables item = Resolve.expandWildcard tables := by
  cases h <;> exact List.append_nil _

/-- A star lists no column of some name only when no table has one. -/
theorem forall_expandWildcard_ne_iff :
    (∀ output ∈ Resolve.expandWildcard tables, output.name ≠ column) ↔
      ∀ table ∈ tables, column ∉ table.2.keys := by
  constructor
  · intro h table htable hcolumn
    obtain ⟨entry, hentry, rfl⟩ := List.mem_map.1 hcolumn
    exact h _ (List.mem_flatMap.2 ⟨table, htable, List.mem_map_of_mem hentry⟩) rfl
  · rintro h output houtput rfl
    obtain ⟨table, htable, houtput⟩ := List.mem_flatMap.1 houtput
    obtain ⟨entry, hentry, rfl⟩ := List.mem_map.1 houtput
    exact h table htable (List.mem_map_of_mem hentry)

end

/-- The outputs of a list of items are those of its items, one after another. -/
theorem resolve_fields {schema : Schema} {relations : List Relation}
    {tables : List (String × Columns)} (h : Resolve.tables schema relations = .ok tables)
    (kind : StatementKind) (items : List SelectItem) :
    ∃ findings, Resolve.resolve schema ⟨kind, fields items, relations⟩ =
      .ok (items.flatMap (outputsOf tables), findings) := by
  have houtputs : ((fields items).map (Resolve.resolveField tables)).flatMap Prod.fst =
      items.flatMap (outputsOf tables) := by
    rw [List.flatMap_map, fields, List.filterMap_eq_flatMap_toList, List.flatMap_assoc]
    rfl
  refine ⟨((fields items).map (Resolve.resolveField tables)).flatMap Prod.snd, ?_⟩
  rw [Resolve.resolve, h, ← houtputs]
  rfl

/-- From a list of items every star is taken for all columns, every name for a column, and every
other item leaves one finding. So the fields are those of the plain items, and the findings are
about all others, exactly when no star of the list has options; lists that are read in a dialect
without such options are of this kind. Under a schema that declares the relations of a statement, no
star lists a column that it leaves out exactly when none of these relations has such a column. -/
theorem takeItems_plain_iff (items : List SelectItem) (before : List Field)
    (held : List Diagnostic) :
    (items.foldlM takeItem before).after held =
        ⟨.ok (before ++ fields items), held ++ skippedItems items⟩ ∧
      Accounted StandsFor skippedItem items (fields items) (skippedItems items) ∧
      (∀ d ∈ skippedItems items, d.code = .sqlUnsupportedShape ∧ d.severity = .info) ∧
      (Accounted PlainItem skippedItem items (fields items) (skippedItems items) ↔
        ∀ item ∈ items, NoOptions item) ∧
      (∀ inner : Grammar.Level, inner.dialect ≠ .bigquery → inner.dialect ≠ .ansi →
        ∀ left rest, (Grammar.selectList inner).run left = (.ok items, rest) ∨
            (Grammar.selectItems inner).run left = (.ok items, rest) →
          Accounted PlainItem skippedItem items (fields items) (skippedItems items)) ∧
      ∀ schema kind relations tables, Resolve.tables schema relations = .ok tables →
        (∃ findings, Resolve.resolve schema ⟨kind, fields items, relations⟩ =
          .ok (items.flatMap (outputsOf tables), findings)) ∧
        ((∀ item ∈ items, ∀ column, LeavesOut item column →
            ∀ output ∈ outputsOf tables item, output.name ≠ column) ↔
          ∀ item ∈ items, ∀ column, LeavesOut item column →
            ∀ table ∈ tables, column ∉ table.2.keys) := by
  have haccount := accounted_fields items
  refine ⟨after_takeItems held before items, haccount, ?_, accounted_plainItem_iff haccount, ?_, ?_⟩
  · intro d hd
    obtain ⟨item, -, -, rfl⟩ := haccount.exists_of_mem hd
    exact ⟨rfl, rfl⟩
  · intro inner hbigquery hansi left rest hread
    exact (accounted_plainItem_iff haccount).2 (noOptions_of_run hbigquery hansi hread)
  · intro schema kind relations tables htables
    refine ⟨resolve_fields htables kind items, ?_⟩
    refine forall₂_congr fun item _ => forall₂_congr fun column hout => ?_
    -- The star lists every column of the tables, be it left out or not.
    rw [hout.outputsOf]
    exact forall_expandWildcard_ne_iff

/-- A star that leaves a column out is all columns, and that column is among the outputs. -/
theorem takeItems_plain_except :
    let star : SelectItem := .wildcard [.text " EXCEPT (secret)"]
    let users := Schema.empty.withTable "users"
      [("id", ⟨"number", false, false⟩), ("secret", ⟨"string", false, false⟩)]
    let text := "select * except (secret) from users"
    star.text = "* EXCEPT (secret)" ∧ LeavesOut star "secret" ∧
      ¬ Accounted PlainItem skippedItem [star] (fields [star]) (skippedItems [star]) ∧
      Grammar.shapes? .bigquery text = some [some ⟨.select, [.wildcard], [⟨"users", none⟩]⟩] ∧
      ((Analysis.analyze .bigquery users text).toOption.map fun c =>
        (c.outputs.map (·.name), c.diagnostics)) = some (["id", "secret"], []) := by
  intro star users text
  have hout : LeavesOut star (Word.mk "secret" none).value :=
    .except (show _ ∈ [Piece.text (" EXCEPT (" ++ listed [⟨"secret", none⟩] ++ ")")] from
      List.mem_cons_self) List.mem_cons_self
  refine ⟨by decide +kernel, hout, ?_, by decide +kernel, by decide +kernel⟩
  rw [accounted_plainItem_iff (accounted_fields _)]
  intro hplain
  cases hplain star List.mem_cons_self

end TypedSql.Shape
