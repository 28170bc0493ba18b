import Mathlib.Logic.Relation
import TypedSql.Proofs.Batch.Collectors

/-! # A query is told by its leftmost select

The shape of a query and the findings about it are those of the select at its very left. Whatever
stands beside the way down to that select may be another, and parentheses on the way may come and
go: every such change keeps the select, so a row of them keeps the shape and the findings.
-/

namespace TypedSql.Shape

open Batch Collecting

/-! ## Changes beside the way to a select -/

/-- One change of a query body that is not on the way to the select at its very left: another
operator or right operand, other clauses of a query in parentheses, or parentheses around a left
operand that come or go. The last two tell that the change may be any way down. -/
inductive Change : QueryBody → QueryBody → Prop
  | right (left : QueryBody) (op op' : String) (right right' : QueryBody) :
      Change (.combined left op right) (.combined left op' right')
  | clauses (opening opening' : List Piece) (body : QueryBody) (closing closing' : List Piece) :
      Change (.query (.mk opening body closing)) (.query (.mk opening' body closing'))
  | enclose (left : QueryBody) (op : String) (right : QueryBody) :
      Change (.combined left op right) (.combined (.query (.mk [] left [])) op right)
  | disclose (left : QueryBody) (op : String) (right : QueryBody) :
      Change (.combined (.query (.mk [] left [])) op right) (.combined left op right)
  | inQuery {body body' : QueryBody} (opening closing : List Piece) (h : Change body body') :
      Change (.query (.mk opening body closing)) (.query (.mk opening body' closing))
  | inLeft {left left' : QueryBody} (op : String) (right : QueryBody) (h : Change left left') :
      Change (.combined left op right) (.combined left' op right)

theorem Change.leadingSelect_eq {body body' : QueryBody} (h : Change body body') :
    leadingSelect body = leadingSelect body' := by
  induction h with
  | right left op op' right right' => rw [leadingSelect, leadingSelect]
  | clauses opening opening' body closing closing' => rw [leadingSelect, leadingSelect]
  | enclose left op right => rw [leadingSelect, leadingSelect, leadingSelect]
  | disclose left op right => rw [leadingSelect, leadingSelect, leadingSelect]
  | inQuery opening closing _ ih => rwa [leadingSelect, leadingSelect]
  | inLeft op right _ ih => rwa [leadingSelect, leadingSelect]

/-- Any number of changes keeps the select at the very left. -/
theorem leadingSelect_eq_of_changes {body body' : QueryBody}
    (h : Relation.ReflTransGen Change body body') : leadingSelect body = leadingSelect body' := by
  induction h with
  | refl => rfl
  | tail _ hlast ih => exact ih.trans hlast.leadingSelect_eq

/-! ## Queries that start with a select -/

/-- A query that starts with a select adds the relations, the fields and the findings of this select
to whatever is held, and nothing else. -/
theorem after_collect_of_startsWith (sql : String) (held : List Diagnostic) {q : Query} {s : Select}
    (h : StartsWith q.body s) :
    (collect sql (.query q)).after held =
      ⟨.ok ⟨.select, fields s.items, relations s.sources⟩,
        held ++ (skippedTables s.sources ++ skippedItems s.items)⟩ := by
  have hstep : shapeStep sql (.query q) = .ok (⟨.select, fields s.items, relations s.sources⟩,
      skippedTables s.sources ++ skippedItems s.items) := by
    rw [shapeStep, ofStatement, ofQuery, h.leadingSelect]
    rfl
  rw [after_collect, hstep, leave]

/-- A query that starts with a select has the shape of this select on its own and leaves the same
findings, which account for the tables and the items of the select. Another query has the same shape
and leaves the same findings when its body comes about by changes beside the way to the select,
whatever comes before and after the bodies. -/
theorem collect_leftmost {q : Query} {s : Select} (h : StartsWith q.body s) (sql : String)
    (held : List Diagnostic) :
    (∃ rs fs ds es, (collect sql (.query q)).after held =
        ⟨.ok ⟨.select, fs, rs⟩, held ++ (ds ++ es)⟩ ∧
      Accounted NamesRelation skippedTable (inSourceOrder s.sources) rs ds ∧
      Accounted StandsFor skippedItem s.items fs es) ∧
    (collect sql (.query q)).after held =
      (collect sql (.query (.mk [] (.select s) []))).after held ∧
    ∀ q', Relation.ReflTransGen Change q.body q'.body → ∀ sql',
      (collect sql' (.query q')).after held = (collect sql (.query q)).after held := by
  have hafter := after_collect_of_startsWith sql held h
  refine ⟨⟨_, _, _, _, hafter, accounted_relations _, accounted_fields _⟩, ?_, ?_⟩
  · rw [hafter, after_collect_of_startsWith sql held (q := .mk [] (.select s) []) (.select s)]
  · intro q' hchanges sql'
    have hselect : leadingSelect q'.body = some s := by
      rw [← leadingSelect_eq_of_changes hchanges, h.leadingSelect]
    rw [hafter, after_collect_of_startsWith sql' held (startsWith_of_leadingSelect hselect)]

/-- A union keeps its shape and its finding when it is another operator of other operands, with the
select in parentheses and in order, a named query before it and a limit after it. -/
theorem collect_leftmost_union :
    let items : List SelectItem := [.plain (.name ⟨"id", none⟩), .qualifiedWildcard [⟨"p", none⟩] []]
    let products : TableFactor :=
      .named [⟨"products", none⟩] [] none false (some ⟨⟨"p", none⟩, []⟩) []
    let select : Select := .mk "" [] items "" [.mk products []] []
    let union : Query :=
      .mk [] (.combined (.select select) "UNION" (.other [.text "VALUES (1)"])) []
    let sorted : QueryBody := .query (.mk [] (.select select) [.text " ORDER BY id"])
    let other : Query := .mk [.text "WITH x AS (SELECT 1) "]
      (.combined sorted "EXCEPT ALL" (.other [.text "TABLE x"])) [.text " LIMIT 1"]
    StartsWith union.body select ∧ Relation.ReflTransGen Change union.body other.body ∧
      (collect "" (.query other)).after [] = (collect "" (.query union)).after [] ∧
      (collect "" (.query union)).after [] =
        ⟨.ok ⟨.select, [.column "id"], [⟨"products", some "p"⟩]⟩,
          [skipped "projection" "p.*"]⟩ := by
  intro items products select union sorted other
  have hstarts : StartsWith union.body select := .combined _ _ (.select _)
  have hchanges : Relation.ReflTransGen Change union.body other.body :=
    ((Relation.ReflTransGen.single (.right _ _ _ _ _)).tail (.enclose _ _ _)).tail
      (.inLeft _ _ (.clauses _ _ _ _ _))
  obtain ⟨-, halone, hsame⟩ := collect_leftmost hstarts "" []
  exact ⟨hstarts, hchanges, hsame other hchanges "", halone.trans rfl⟩

end TypedSql.Shape
