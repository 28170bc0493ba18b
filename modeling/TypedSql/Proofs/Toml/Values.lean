import Mathlib.Data.List.Forall2
import TypedSql.Proofs.Toml.Threefold
import TypedSql.Toml.Value

namespace TypedSql.Toml

open Reader Reading

/-! # Written values are read again

Texts and lists of texts are the values that are written. An item that is read also tells the
stretch that it was read from; what it holds does not depend on that.
-/

/-- An item is a text. -/
def Item.IsText (s : String) (item : Item) : Prop := ∃ span, item = .text s span

/-- An item is a list of texts. -/
def Item.IsTexts (texts : List String) (item : Item) : Prop :=
  ∃ items span, item = .list items span ∧ List.Forall₂ IsText texts items

section

variable {s : String} {rest : List Char} {container : Char → Reader (Span → Item)}

/-! ## Texts -/

/-- A text is read as a scalar value. -/
theorem run_scalar_text {c : Char} (hc : c = '\x22' ∨ c = '\x27') (hrest : EndsText rest) :
    (scalar c).run (writeText s ++ rest) = .ok (.text s, rest) := by
  have hscalar : scalar c = (do return .text (← string)) := by
    unfold scalar
    rcases hc with rfl | rfl <;> rfl
  rw [hscalar]
  exact run_bind_of_ok (run_string s hrest)

/-- A text is read as an item. -/
theorem run_item_text (s : String) (container : Char → Reader (Span → Item))
    (hrest : EndsText rest) :
    ∃ item, (value.item container).run (writeText s ++ rest) = .ok (item, rest) ∧
      item.IsText s := by
  obtain ⟨c, cs, hwrite, hc⟩ := exists_writeText s
  have hscalar := run_scalar_text (s := s) hc hrest
  refine ⟨_, run_bind_of_ok (run_spanned ((run_bind_of_ok (run_peek _)).trans ?_)), _, rfl⟩
  rw [hwrite] at hscalar ⊢
  dsimp only [List.cons_append, List.head?_cons] at hscalar ⊢
  rw [if_neg (by rcases hc with rfl | rfl <;> decide)]
  exact hscalar

/-- At any depth, the items that are not containers are read alike. -/
theorem exists_value_eq_item (depth : Nat) : ∃ container, value depth = value.item container := by
  cases depth with
  | zero => exact ⟨_, rfl⟩
  | succ depth => exact ⟨_, rfl⟩

/-- A text is read as a value. -/
theorem run_value_text (depth : Nat) (s : String) (hrest : EndsText rest) :
    ∃ item, (value depth).run (writeText s ++ rest) = .ok (item, rest) ∧ item.IsText s := by
  obtain ⟨container, hvalue⟩ := exists_value_eq_item depth
  rw [hvalue]
  exact run_item_text s container hrest

/-- The end of a list is no value. -/
theorem declines_item_end (rest : List Char) :
    Declines (value.item container) (']' :: rest) := by
  have hscalar : Declines (scalar ']') (']' :: rest) := (declines_fail _).expecting.labelled
  exact .bind (.bind_of_ok (run_get _) (.bind (.bind_of_ok (run_peek _) hscalar)))

/-! ## Lists -/

/-- An item of a list, with the gaps around it. -/
def spaced (item : Reader Item) : Reader Item := do
  gap
  let x ← item
  gap
  return x

/-- A list with a first item is read item by item, with a comma at its end or without. -/
theorem run_listOf {item : Reader Item} {x : Item} {items : List Item} {c : Char}
    {cs between left after : List Char} {comma : Option Char} (hc : c ≠ ']')
    (hfirst : (spaced item).run (c :: cs) = .ok (x, between))
    (hmore : Pieces (do let _ ← char ','; spaced item) between items left)
    (hcomma : (optional (char ',')).run left = .ok (comma, after))
    (hgap : gap.run after = .ok ((), ']' :: rest)) :
    (listOf item).run ('[' :: c :: cs) = .ok (.list (x :: items), rest) := by
  have hseparated : (separated (spaced item) (char ',')).run (c :: cs) = .ok (x :: items, left) :=
    (run_bind_of_ok (run_optional_some hfirst)).trans (run_bind_of_ok (run_repeated hmore))
  refine (run_bind_of_ok (run_char _ _)).trans ?_
  refine (run_bind_of_ok (a := x :: items) (t := ']' :: rest) (run_commit ?_)).trans ?_
  · refine (run_bind_of_ok (run_peek _)).trans ?_
    dsimp only [List.head?_cons]
    split
    · next heq => exact absurd (Option.some.inj heq) hc
    · refine (run_bind_of_ok hseparated).trans ?_
      exact (run_bind_of_ok (run_map_of_ok hcomma)).trans (run_bind_of_ok hgap)
  · exact run_bind_of_ok (run_labelled (run_expecting (run_commit (run_char _ _))))

/-- A list is read as a value. -/
theorem run_item_list {depth : Nat} {cs : List Char} {items : List Item}
    (h : (listOf (value depth)).run ('[' :: cs) = .ok (.list items, rest)) :
    (value (depth + 1)).run ('[' :: cs) = .ok (.list items ⟨'[' :: cs, rest⟩, rest) := by
  refine run_bind_of_ok (run_spanned ((run_bind_of_ok (run_peek _)).trans ?_))
  exact h

/-! ## Lists of texts -/

theorem endsGap_quote {c : Char} (h : c = '\x22' ∨ c = '\x27') : EndsGap c := by
  rcases h with rfl | rfl <;> exact ⟨rfl, by decide, by decide, by decide⟩

theorem endsGap_end : EndsGap ']' := ⟨rfl, by decide, by decide, by decide⟩

theorem endsGap_comma : EndsGap ',' := ⟨rfl, by decide, by decide, by decide⟩

/-- What follows a text of a list. -/
theorem endsText_cons {c : Char} (h : c ∈ [',', ']', '\n']) (rest : List Char) :
    EndsText (c :: rest) := by
  intro d hd
  cases hd
  simp only [List.mem_cons, List.not_mem_nil, or_false] at h
  rcases h with rfl | rfl | rfl <;> decide

/-- A text of a list behind what may stand before it. -/
theorem run_spaced (depth : Nat) (s : String) {c : Char} {lead : List Char}
    (hlead : ∀ {d cs}, EndsGap d → gap.run (lead ++ d :: cs) = .ok ((), d :: cs))
    (hc : EndsGap c) (htext : EndsText (c :: rest)) :
    ∃ item, (spaced (value depth)).run (lead ++ (writeText s ++ c :: rest)) =
      .ok (item, c :: rest) ∧ item.IsText s := by
  obtain ⟨item, hitem, hholds⟩ := run_value_text depth s htext
  obtain ⟨d, cs, hwrite, hd⟩ := exists_writeText s
  have hgap : gap.run (lead ++ (writeText s ++ c :: rest)) =
      .ok ((), writeText s ++ c :: rest) := by
    rw [hwrite, List.cons_append]
    exact hlead (endsGap_quote hd)
  refine ⟨item, (run_bind_of_ok hgap).trans ((run_bind_of_ok hitem).trans ?_), hholds⟩
  exact run_bind_of_ok (run_gap_nil hc)

/-- The indentation of the texts of a list that stand on lines of their own. -/
def listIndent : List Char := '\n' :: List.replicate 4 ' '

/-- The texts of a list that stand on lines of their own, and the end of the list. -/
def writeItems (texts : List String) (rest : List Char) : List Char :=
  texts.flatMap (fun s => listIndent ++ writeText s ++ [',']) ++ '\n' :: ']' :: rest

/-- Each item of a list is written on a line of its own. -/
theorem writeItems_cons (s : String) (texts : List String) (rest : List Char) :
    writeItems (s :: texts) rest =
      listIndent ++ (writeText s ++ ',' :: writeItems texts rest) := by
  simp [writeItems]

/-- An item on a line of its own is read as far as its comma. -/
theorem run_spaced_line (depth : Nat) (s : String) (texts : List String) (rest : List Char) :
    ∃ item, (spaced (value depth)).run (writeItems (s :: texts) rest) =
      .ok (item, ',' :: writeItems texts rest) ∧ item.IsText s := by
  rw [writeItems_cons]
  exact run_spaced depth s (fun h => run_gap_lineBreak 4 h) endsGap_comma
    (endsText_cons (by simp) _)

/-- There is no item before the bracket that closes a list. -/
theorem declines_spaced_end (depth : Nat) (rest : List Char) :
    Declines (spaced (value depth)) ('\n' :: ']' :: rest) := by
  obtain ⟨container, hvalue⟩ := exists_value_eq_item depth
  rw [hvalue]
  exact .bind_of_ok (run_gap_lineBreak 0 endsGap_end) (declines_item_end rest).bind

/-- The items after the first are read as the texts that they are written for. -/
theorem exists_pieces (depth : Nat) (texts : List String) (rest : List Char) :
    ∃ items, Pieces (do let _ ← char ','; spaced (value depth)) (',' :: writeItems texts rest) items
      (',' :: '\n' :: ']' :: rest) ∧ List.Forall₂ Item.IsText texts items := by
  induction texts with
  | nil =>
      -- Behind the last comma no item comes, so that comma is left for the end of the list.
      exact ⟨[], .stop (.bind_of_ok (run_char _ _) (declines_spaced_end depth rest)), .nil⟩
  | cons s texts ih =>
      obtain ⟨item, hitem, htext⟩ := run_spaced_line depth s texts rest
      obtain ⟨items, hitems, htexts⟩ := ih
      refine ⟨item :: items, .step ((run_bind_of_ok (run_char _ _)).trans hitem) ?_ hitems,
        .cons htext htexts⟩
      rw [writeItems_cons]
      simp only [List.length_cons, List.length_append]
      omega

/-- A list of texts is read as a list of these texts, at any depth but the last. -/
theorem run_value_texts (depth : Nat) (texts : List String) (rest : List Char) :
    ∃ item, (value (depth + 1)).run (writeTexts texts ++ rest) = .ok (item, rest) ∧
      item.IsTexts texts := by
  -- An empty list and one of a single text stand on one line, a longer one takes a line for each.
  match texts with
  | [] =>
      refine ⟨_, run_item_list ?_, [], _, rfl, .nil⟩
      refine (run_bind_of_ok (run_char _ _)).trans ?_
      refine (run_bind_of_ok (a := []) (t := ']' :: rest) (run_commit ?_)).trans ?_
      · exact run_bind_of_ok (run_peek _)
      · exact run_bind_of_ok (run_labelled (run_expecting (run_commit (run_char _ _))))
  | [s] =>
      have hlead : ∀ {d cs}, EndsGap d → gap.run ([] ++ d :: cs) = .ok ((), d :: cs) := run_gap_nil
      obtain ⟨item, hitem, htext⟩ :=
        run_spaced depth s hlead endsGap_end (endsText_cons (by simp) rest)
      obtain ⟨c, cs, hwrite, hc⟩ := exists_writeText s
      have htexts : writeTexts [s] ++ rest = '[' :: c :: (cs ++ ']' :: rest) := by
        simp [writeTexts, hwrite]
      rw [List.nil_append, hwrite] at hitem
      rw [htexts]
      have hnoComma : Declines (char ',') (']' :: rest) := declines_char (by simp)
      refine ⟨_, run_item_list (run_listOf ?_ hitem (.stop (.bind hnoComma))
        (run_optional_none hnoComma) (run_gap_nil endsGap_end)), _, _, rfl, .cons htext .nil⟩
      rcases hc with rfl | rfl <;> decide
  | s :: t :: texts =>
      obtain ⟨item, hitem, htext⟩ := run_spaced_line depth s (t :: texts) rest
      obtain ⟨items, hitems, htexts⟩ := exists_pieces depth (t :: texts) rest
      have hwrite : writeTexts (s :: t :: texts) ++ rest =
          '[' :: writeItems (s :: t :: texts) rest := by
        simp [writeTexts, writeItems, listIndent]
      rw [hwrite]
      rw [writeItems_cons, listIndent, List.cons_append] at hitem ⊢
      exact ⟨_, run_item_list (run_listOf (by decide) hitem hitems
        (run_optional_some (run_char _ _)) (run_gap_lineBreak 0 endsGap_end)), _, _, rfl,
        .cons htext htexts⟩

end

end TypedSql.Toml
