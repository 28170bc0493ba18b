import TypedSql.Proofs.Batch.Collectors
import TypedSql.Proofs.Resolve.Tables
import TypedSql.Proofs.Shape.NamedQueries

/-! # Table references that are more than a name

A table reference that starts with a name is taken for the relation of that name, whatever comes
after the name: a table function with its arguments is one, too. So only lists in which nothing but
an alias comes with any name have the relations that their plain references name.
-/

namespace TypedSql.Shape

/-! ## Plain references -/

/-- A plain reference is a name with an alias at most, and stands for the relation of that name. -/
inductive PlainTable : TableFactor → Relation → Prop
  | intro (names : List Word) (tableAlias : Option TableAlias) :
      PlainTable (.named names [] none false tableAlias [])
        ⟨".".intercalate (names.map Word.value), tableAlias.map fun a => a.name.value⟩

/-- Nothing but an alias comes with the name, where a reference has one. -/
def NameOnly : TableFactor → Prop
  | .named _ partitions arguments ordinality _ closing =>
      partitions = [] ∧ arguments = none ∧ ordinality = false ∧ closing = []
  | .joined _ _ => True
  | .other _ _ _ => True

theorem plainTable_iff {t : TableFactor} {r : Relation} :
    PlainTable t r ↔ NamesRelation t r ∧ NameOnly t := by
  constructor
  · rintro ⟨names, tableAlias⟩
    exact ⟨.named names [] none false tableAlias [], rfl, rfl, rfl, rfl⟩
  · rintro ⟨⟨names, partitions, arguments, ordinality, tableAlias, closing⟩, hplain⟩
    obtain ⟨rfl, rfl, rfl, rfl⟩ := hplain
    exact .intro names tableAlias

theorem nameOnly_or_namesRelation (t : TableFactor) : NameOnly t ∨ ∃ r, NamesRelation t r := by
  cases t with
  | named names partitions arguments ordinality tableAlias closing =>
      exact .inr ⟨_, .named names partitions arguments ordinality tableAlias closing⟩
  | joined t tableAlias => exact .inl trivial
  | other pieces tableAlias closing => exact .inl trivial

/-- Relations and findings that account for all named references account for the plain ones exactly
when there are no others. -/
theorem accounted_plainTable_iff {ts : List TableFactor} {rs : List Relation}
    {ds : List Diagnostic} (h : Accounted NamesRelation skippedTable ts rs ds) :
    Accounted PlainTable skippedTable ts rs ds ↔ ∀ t ∈ ts, NameOnly t :=
  h.narrow_iff (fun _ _ => plainTable_iff) nameOnly_or_namesRelation

/-! ## References that are looked up -/

theorem mem_relations {tables : List TableWithJoins} {t : TableFactor} {r : Relation}
    (ht : t ∈ inSourceOrder tables) (hr : NamesRelation t r) : r ∈ relations tables := by
  rw [relations, factors_eq_inSourceOrder]
  exact List.mem_filterMap.2 ⟨t, ht, namesRelation_iff.1 hr⟩

/-- From a list of tables every reference that starts with a name is taken for a relation, and every
other one leaves one finding. So the relations are those of the plain references, and the findings
are about all others, exactly when the list has no names with more than an alias. A named reference
of any kind is looked up, and the statement has no outputs unless it is declared. -/
theorem takeTables_plain_iff (tables : List TableWithJoins) (before : List Relation)
    (held : List Diagnostic) :
    (tables.foldlM takeJoined before).after held =
        ⟨.ok (before ++ relations tables), held ++ skippedTables tables⟩ ∧
      Accounted NamesRelation skippedTable (inSourceOrder tables) (relations tables)
        (skippedTables tables) ∧
      (∀ d ∈ skippedTables tables, d.code = .sqlUnsupportedShape ∧ d.severity = .info) ∧
      (Accounted PlainTable skippedTable (inSourceOrder tables) (relations tables)
          (skippedTables tables) ↔ ∀ t ∈ inSourceOrder tables, NameOnly t) ∧
      ∀ schema kind fields found,
        Resolve.resolve schema ⟨kind, fields, before ++ relations tables⟩ = .ok found →
        ∀ t ∈ inSourceOrder tables, ∀ r, NamesRelation t r → (schema.table? r.name).isSome := by
  have haccount := accounted_relations tables
  refine ⟨after_takeTables held before tables, haccount, ?_, accounted_plainTable_iff haccount, ?_⟩
  · intro d hd
    obtain ⟨t, -, -, rfl⟩ := haccount.exists_of_mem hd
    exact ⟨rfl, rfl⟩
  · intro schema kind fields found hfound t ht r hr
    exact Resolve.isSome_of_resolve hfound r (List.mem_append_right before (mem_relations ht hr))

/-- A call in the place of a table is the relation of its name, and fails when it is looked up. -/
theorem takeTables_plain_call :
    let call : TableFactor :=
      .named [⟨"f", none⟩] [] (some [.expr (.literal (.number "1" false))]) false none []
    call.text = "f(1)" ∧
      ¬ Accounted PlainTable skippedTable (inSourceOrder [.mk call []]) (relations [.mk call []])
        (skippedTables [.mk call []]) ∧
      Grammar.shapes? .postgres "select id from f(1)" =
        some [some ⟨.select, [.column "id"], [⟨"f", none⟩]⟩] ∧
      ∃ e, Analysis.analyze .postgres .empty "select id from f(1)" = .error e ∧
        e.message = "Unknown relation `f`" := by
  intro call
  refine ⟨by decide +kernel, ?_, by decide +kernel, ?_⟩
  · rw [accounted_plainTable_iff (accounted_relations _)]
    intro hplain
    obtain ⟨-, harguments, -⟩ := hplain call List.mem_cons_self
    cases harguments
  · have hmessage : (match Analysis.analyze .postgres .empty "select id from f(1)" with
        | .error e => e.message
        | .ok _ => "") = "Unknown relation `f`" := by
      decide +kernel
    cases h : Analysis.analyze .postgres .empty "select id from f(1)" with
    | error e => exact ⟨e, rfl, by rwa [h] at hmessage⟩
    | ok c =>
        rw [h] at hmessage
        exact absurd (show "" = "Unknown relation `f`" from hmessage) (by decide)

end TypedSql.Shape
