import TypedSql.Proofs.Json.Records
import TypedSql.Proofs.Keyed
import TypedSql.Schema.Json

namespace TypedSql

open Json Json.Codec Reading

/-! # Written schemas are read again

A schema is written as an object of relations, each an object of columns. Names of relations and of
columns come once, so reading them back adds each of them at the end.
-/

/-! ## One relation -/

namespace Columns

/-- The columns of a relation in the form in which they are written. -/
def toJson (columns : Columns) : Json :=
  .object (columns.entries.map fun (column, type) => (column, ColumnType.codec.toJson type))

theorem fits_toJson (columns : Columns) (depth : Nat) : Fits (depth + 2) columns.toJson := by
  refine .object fun entry hentry => ?_
  obtain ⟨⟨column, type⟩, _, rfl⟩ := List.mem_map.1 hentry
  refine .object fun field hfield => ?_
  have hfields : field ∈ [("type", Json.text type.typeName), ("nullable", .flag type.nullable),
      ("array", .flag type.array)] := hfield
  simp only [List.mem_cons, List.not_mem_nil, or_false] at hfields
  rcases hfields with rfl | rfl | rfl
  · exact .text _ _
  · exact .flag _ _
  · exact .flag _ _

theorem ofJson?_toJson (columns : Columns) : ofJson? columns.toJson = some columns := by
  have hentries : ∀ entries : List (String × ColumnType),
      ofEntries (entries.map fun (column, type) => (column, ColumnType.codec.toJson type)) =
        .ok entries := by
    intro entries
    induction entries with
    | nil => rfl
    | cons entry entries ih =>
        obtain ⟨column, type⟩ := entry
        unfold ofEntries at ih ⊢
        simp only [List.map_cons, Outcome.mapM_cons, ih, (ColumnType.restores type).ofJson]
        rfl
  unfold toJson ofJson?
  dsimp only
  rw [hentries]
  exact congrArg some (Keyed.ofList_entries columns)

end Columns

namespace Schema

/-- A relation that has not been given before goes to the end. -/
theorem gathers_relations (layout : Layout) (depth : Nat) (relations : Keyed Columns)
    (pairs : List (String × Columns)) :
    Gathers readRelation layout depth relations
      (pairs.map fun (name, columns) => (name, columns.toJson))
      (pairs.foldl (fun k pair => k.insert pair.1 pair.2) relations) := by
  induction pairs generalizing relations with
  | nil => exact .nil _
  | cons pair pairs ih =>
      obtain ⟨name, columns⟩ := pair
      refine .cons (fun rest hrest => ?_) (ih _)
      obtain ⟨gap, hgap, hcolon⟩ := exists_colon layout
      have hvalue : (value relationDepth).run
          (gap ++ (write layout depth columns.toJson ++ rest)) = .ok (columns.toJson, rest) :=
        run_value (columns.fits_toJson 124) hgap hrest
      rw [hcolon]
      refine (run_bind_of_ok (run_colon _)).trans ((run_bind_of_ok hvalue).trans ?_)
      dsimp only
      rw [columns.ofJson?_toJson]
      rfl

/-- A text that holds a written schema, in either layout. -/
theorem ofJsonText_write (s : Schema) (layout : Layout) :
    ofJsonText (String.ofList (write layout 0 s.toJson)) = .ok s := by
  have hgathers := gathers_relations layout 1 Keyed.empty s.relations.entries
  have hstate : s.relations.entries.foldl (fun k pair => k.insert pair.1 pair.2) Keyed.empty =
      s.relations := Keyed.ofList_entries s.relations
  rw [hstate] at hgathers
  have hobject : (inObject (entries readRelation Keyed.empty >>= pure)).run
      (write layout 0 s.toJson ++ []) = .ok (s.relations, []) :=
    run_inObject_entries hgathers (fun _ => rfl) []
  rw [bind_pure] at hobject
  obtain ⟨more, hwrite⟩ := exists_write_object layout 0
    (s.relations.entries.map fun (name, columns) => (name, columns.toJson)) []
  have hread : read.run (write layout 0 s.toJson ++ []) = .ok (s, []) := by
    have hopen : write layout 0 s.toJson ++ [] = '\x7b' :: more := hwrite
    rw [hopen] at hobject ⊢
    exact (run_bind_of_ok (run_peekValue_cons rfl)).trans (run_bind_of_ok hobject)
  rw [List.append_nil] at hread
  exact readAll_ofList hread

/-- A schema that is written is read back, on one line or over several: with the same relations in
the same order, each with the same columns in the same order and of the same types. -/
theorem ofJsonText_toJson (s : Schema) :
    ofJsonText s.toJson.compact = .ok s ∧ ofJsonText s.toJson.pretty = .ok s :=
  ⟨ofJsonText_write s .compact, ofJsonText_write s .indented⟩

end Schema

end TypedSql
