import TypedSql.Json.Value
import TypedSql.Proofs.Json.Containers
import TypedSql.Proofs.Json.Numbers

namespace TypedSql.Json

open Reader Reading

/-! # Written values are read again

A value that is written in either layout is read as itself, if it is not nested too deeply and its
numbers are those that are kept.
-/

/-- A value that is written so that it can be read: at most `depth` lists and objects stand inside
one another, and its numbers are natural numbers of sixty-four bits. -/
inductive Fits : Nat → Json → Prop
  | null (depth : Nat) : Fits depth .null
  | flag (depth : Nat) (value : Bool) : Fits depth (.flag value)
  | natural (depth : Nat) {n : Nat} (h : n ≤ maxNatural) : Fits depth (.integer n)
  | text (depth : Nat) (s : String) : Fits depth (.text s)
  | list {depth : Nat} {items : List Json} (h : ∀ item ∈ items, Fits depth item) :
      Fits (depth + 1) (.list items)
  | object {depth : Nat} {entries : List (String × Json)}
      (h : ∀ entry ∈ entries, Fits depth entry.2) : Fits (depth + 1) (.object entries)

theorem Fits.isDecimal {depth : Nat} {json : Json} (h : Fits depth json) :
    json.isDecimal = false := by
  cases h <;> rfl

variable {layout : Layout} {depth level : Nat} {json : Json} {c : Char} {cs rest gap : List Char}

theorem run_value_scalar (hgap : Gap gap) (hblank : isBlank c = false) (hlist : c ≠ '[')
    (hobject : c ≠ '\x7b') (h : (scalar c).run (c :: cs) = .ok (json, rest)) :
    (value depth).run (gap ++ c :: cs) = .ok (json, rest) := by
  cases depth with
  | zero =>
      rw [value, run_bind_of_ok (run_peekValue hgap hblank)]
      split
      · exact absurd rfl hlist
      · exact absurd rfl hobject
      · exact h
  | succ depth =>
      rw [value, run_bind_of_ok (run_peekValue hgap hblank)]
      split
      · exact absurd rfl hlist
      · exact absurd rfl hobject
      · exact h

theorem run_scalar_word {c : Char} (more : List Char) {json : Json}
    (h : scalar c = (do drop; word more; return json)) (rest : List Char) :
    (scalar c).run (c :: (more ++ rest)) = .ok (json, rest) := by
  rw [h, run_bind_of_ok (run_drop _ _), run_bind_of_ok (run_word more rest)]
  rfl

theorem run_scalar_text (s : String) (rest : List Char) :
    (scalar '\x22').run (writeText s ++ rest) = .ok (.text s, rest) :=
  run_bind_of_ok (run_string s rest)

theorem scalar_of_isDigit (h : c.isDigit = true) : scalar c = number := by
  unfold scalar
  split
  · cases h
  · cases h
  · cases h
  · cases h
  · rw [if_pos (by simp [h])]

/-- An entry of an object whose values are read to some depth. -/
def valueEntry (depth : Nat) (key : String) (found : List (String × Json)) :
    Reader (List (String × Json)) := do
  colon
  return (key, ← value depth) :: found

theorem gathers_valueEntry (entries found : List (String × Json))
    (h : ∀ entry ∈ entries, ∀ gap, Gap gap → ∀ rest, Ends rest →
      (value depth).run (gap ++ (write layout level entry.2 ++ rest)) = .ok (entry.2, rest)) :
    Gathers (valueEntry depth) layout level found entries (entries.reverse ++ found) := by
  induction entries generalizing found with
  | nil => exact .nil found
  | cons entry entries ih =>
      obtain ⟨key, json⟩ := entry
      obtain ⟨gap, hgap, hcolon⟩ := exists_colon layout
      rw [List.reverse_cons, List.append_assoc]
      refine .cons (fun rest hrest => ?_) (ih _ fun entry hentry => h entry (.tail _ hentry))
      rw [hcolon, List.cons_append, valueEntry, run_bind_of_ok (run_colon _),
        run_bind_of_ok (h (key, json) List.mem_cons_self gap hgap rest hrest)]
      rfl

/-- A list is read again where its items are, one level deeper. -/
theorem run_value_list {items : List Json} (h : ∀ item ∈ items, item.isDecimal = false)
    (hread : ∀ item ∈ items, ∀ rest, Ends rest →
      (value depth).run (write layout (level + 1) item ++ rest) = .ok (item, rest))
    (hgap : Gap gap) (rest : List Char) :
    (value (depth + 1)).run (gap ++ (write layout level (.list items) ++ rest)) =
      .ok (.list items, rest) := by
  have hitems : ReadsItems (value depth) id layout (level + 1) items :=
    fun item hitem => ⟨h item hitem, hread item hitem⟩
  have hlist : (inList (Json.items (value depth) >>= fun found => pure (Json.list found))).run
      (write layout level (.list (items.map id)) ++ rest) = .ok (.list items, rest) :=
    run_inList_items hitems (fun _ => rfl) rest
  rw [List.map_id] at hlist
  obtain ⟨more, hwrite⟩ := exists_write_list layout level items rest
  rw [hwrite] at hlist ⊢
  rw [value, run_bind_of_ok (run_peekValue hgap rfl)]
  exact hlist

/-- An object is read again where the values of its entries are, one level deeper. -/
theorem run_value_object {entries : List (String × Json)}
    (hread : ∀ entry ∈ entries, ∀ gap, Gap gap → ∀ rest, Ends rest →
      (value depth).run (gap ++ (write layout (level + 1) entry.2 ++ rest)) = .ok (entry.2, rest))
    (hgap : Gap gap) (rest : List Char) :
    (value (depth + 1)).run (gap ++ (write layout level (.object entries) ++ rest)) =
      .ok (.object entries, rest) := by
  have hentries := gathers_valueEntry entries [] hread
  rw [List.append_nil] at hentries
  have hobject : (inObject (Json.entries (valueEntry depth) [] >>= fun found =>
      pure (Json.object found.reverse))).run (write layout level (.object entries) ++ rest) =
        .ok (.object entries, rest) :=
    run_inObject_entries hentries (fun _ => by rw [List.reverse_reverse]; rfl) rest
  obtain ⟨more, hwrite⟩ := exists_write_object layout level entries rest
  rw [hwrite] at hobject ⊢
  rw [value, run_bind_of_ok (run_peekValue hgap rfl)]
  exact hobject

theorem run_value_natural {n : Nat} (h : n ≤ maxNatural) (hgap : Gap gap) (hrest : Ends rest) :
    (value depth).run (gap ++ (write layout level (.integer n) ++ rest)) =
      .ok (.integer n, rest) := by
  have hnumber := run_number h hrest
  obtain ⟨c, cs, hwrite, hdigit⟩ := exists_writeInteger_natural n
  rw [write, hwrite, List.cons_append]
  rw [hwrite, List.cons_append, ← scalar_of_isDigit hdigit] at hnumber
  refine run_value_scalar hgap (isBlank_of_isDigit hdigit) ?_ ?_ hnumber
  · rintro rfl
    cases hdigit
  · rintro rfl
    cases hdigit

/-- A value in front of what ends it, past the blanks before it. -/
theorem run_value (h : Fits depth json) (hgap : Gap gap) (hrest : Ends rest) :
    (value depth).run (gap ++ (write layout level json ++ rest)) = .ok (json, rest) := by
  -- The layout and the depth of the writing are free, since parts are written one level deeper.
  induction h generalizing gap rest level with
  | null depth =>
      exact run_value_scalar hgap rfl (by decide) (by decide)
        (run_scalar_word ['u', 'l', 'l'] rfl rest)
  | flag depth value =>
      cases value with
      | true =>
          exact run_value_scalar hgap rfl (by decide) (by decide)
            (run_scalar_word ['r', 'u', 'e'] rfl rest)
      | false =>
          exact run_value_scalar hgap rfl (by decide) (by decide)
            (run_scalar_word ['a', 'l', 's', 'e'] rfl rest)
  | natural depth h => exact run_value_natural h hgap hrest
  | text depth s =>
      exact run_value_scalar hgap rfl (by decide) (by decide) (run_scalar_text s rest)
  | list h ih =>
      refine run_value_list (fun item hitem => (h item hitem).isDecimal) ?_ hgap rest
      exact fun item hitem rest hrest => ih item hitem gap_nil hrest
  | object h ih =>
      refine run_value_object ?_ hgap rest
      exact fun entry hentry gap hgap rest hrest => ih entry hentry hgap hrest

/-- A written text holds the value that was written. -/
theorem ofText_write (layout : Layout) (h : Fits maxDepth json) :
    ofText (String.ofList (write layout 0 json)) = .ok json := by
  have hvalue : (value maxDepth).run ([] ++ (write layout 0 json ++ [])) = .ok (json, []) :=
    run_value h gap_nil ends_nil
  rw [List.nil_append, List.append_nil] at hvalue
  exact readAll_ofList hvalue

end TypedSql.Json
