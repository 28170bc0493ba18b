import TypedSql.Proofs.Json.Reading

namespace TypedSql.Json

open Reader Reading

/-! # Written lists and objects are read again

The reader of a list is told by the reader of its items, and that of an object by what one entry
does to what was gathered before. Here the loops over items and entries are run on a written text,
whatever the items and entries are read as.
-/

variable {α β σ : Type} {layout : Layout} {depth : Nat}

/-! ## Lists -/

section

variable {r : Reader α} {toJson : α → Json} {x : α} {xs : List α} {c : Char}
  {cs rest gap : List Char} {fuel : Nat}

/-- A list has a first item where anything but its end stands. -/
theorem run_hasItem_first (hgap : Gap gap) (hblank : isBlank c = false) (hend : c ≠ ']') :
    (hasItem true).run (gap ++ c :: cs) = .ok (true, c :: cs) := by
  rw [hasItem, run_bind_of_ok (run_peekToken hgap hblank)]
  split
  · next h => cases h
  · next h => exact absurd (Option.some.inj h) hend
  · rfl

/-- A list has another item after a comma. -/
theorem run_hasItem_next (cs : List Char) (hgap : Gap gap) (hblank : isBlank c = false)
    (hend : c ≠ ']') :
    (hasItem false).run (',' :: gap ++ c :: cs) = .ok (true, c :: cs) := by
  have hcomma : peekToken.run (',' :: gap ++ c :: cs) = .ok (some ',', ',' :: (gap ++ c :: cs)) :=
    run_peekToken_cons rfl
  rw [hasItem, run_bind_of_ok hcomma]
  show ((drop : Reader Unit) >>= fun _ => _).run (',' :: (gap ++ c :: cs)) = _
  rw [run_bind_of_ok (run_drop _ _), run_bind_of_ok (run_peekToken hgap hblank)]
  split
  · next h => exact absurd (Option.some.inj h) hend
  · rfl
  · next h => cases h

/-- A list has no item more where its end stands. -/
theorem run_hasItem_end (first : Bool) (hgap : Gap gap) :
    (hasItem first).run (gap ++ ']' :: rest) = .ok (false, ']' :: rest) :=
  run_bind_of_ok (run_peekToken hgap rfl)

/-- The reader takes every item of a list off its written form. -/
def ReadsItems (r : Reader α) (toJson : α → Json) (layout : Layout) (depth : Nat) (xs : List α) :
    Prop :=
  ∀ x ∈ xs, (toJson x).isDecimal = false ∧
    ∀ rest, Ends rest → r.run (write layout depth (toJson x) ++ rest) = .ok (x, rest)

/-- Items end where what follows them may. -/
theorem ends_writeItems (items : List Json) (h : Ends rest) :
    Ends (writeItems layout depth items ++ rest) := by
  cases items with
  | nil => exact h
  | cons item items => exact ends_cons (by simp) _

/-- Each item is written with a character at least. -/
theorem length_le_writeItems (layout : Layout) (depth : Nat) (items : List Json) :
    items.length ≤ (writeItems layout depth items).length := by
  induction items with
  | nil => simp
  | cons item items ih =>
      simp only [writeItems, List.length_cons, List.length_append]
      omega

/-- Items are read one after another, by induction on the items. -/
theorem run_itemsLoop (h : ReadsItems r toJson layout (depth + 1) xs) (hfuel : xs.length < fuel) :
    (itemsLoop r fuel false).run
        (writeItems layout (depth + 1) (xs.map toJson) ++
          (layout.lineBreak depth ++ ']' :: rest)) =
      .ok (xs, ']' :: rest) := by
  induction xs generalizing fuel with
  | nil =>
      obtain ⟨fuel, rfl⟩ := Nat.exists_eq_succ_of_ne_zero (Nat.ne_zero_of_lt hfuel)
      rw [itemsLoop]
      exact run_bind_of_ok (run_hasItem_end false (gap_lineBreak layout depth))
  | cons x xs ih =>
      obtain ⟨fuel, rfl⟩ := Nat.exists_eq_succ_of_ne_zero (Nat.ne_zero_of_lt hfuel)
      obtain ⟨hdecimal, hread⟩ := h x List.mem_cons_self
      obtain ⟨c, cs, hwrite, hopening⟩ := exists_write layout (depth + 1) hdecimal
      have hmore := ih (fun y hy => h y (List.mem_cons_of_mem x hy)) (Nat.lt_of_succ_lt_succ hfuel)
      have hends : Ends (writeItems layout (depth + 1) (xs.map toJson) ++
          (layout.lineBreak depth ++ ']' :: rest)) :=
        ends_writeItems _ (ends_lineBreak layout depth (ends_cons (by simp) rest))
      have hnext := run_hasItem_next (cs ++ (writeItems layout (depth + 1) (xs.map toJson) ++
        (layout.lineBreak depth ++ ']' :: rest))) (gap_lineBreak layout (depth + 1))
        hopening.notBlank hopening.notEnd
      -- The comma and the line break lead to the item; what follows the item ends it.
      rw [itemsLoop, List.map_cons, writeItems, hwrite]
      simp only [List.cons_append, List.append_assoc] at hnext ⊢
      rw [run_bind_of_ok hnext, if_pos rfl]
      have hitem := hread _ hends
      rw [hwrite, List.cons_append] at hitem
      rw [run_bind_of_ok hitem, run_bind_of_ok hmore]
      rfl

/-- The items of a list are read as they are written. -/
theorem run_items (h : ReadsItems r toJson layout (depth + 1) (x :: xs)) (rest : List Char) :
    (items r).run (layout.lineBreak (depth + 1) ++ (write layout (depth + 1) (toJson x) ++
        (writeItems layout (depth + 1) (xs.map toJson) ++
          (layout.lineBreak depth ++ ']' :: rest)))) =
      .ok (x :: xs, ']' :: rest) := by
  obtain ⟨hdecimal, hread⟩ := h x List.mem_cons_self
  obtain ⟨c, cs, hwrite, hopening⟩ := exists_write layout (depth + 1) hdecimal
  have hends : Ends (writeItems layout (depth + 1) (xs.map toJson) ++
      (layout.lineBreak depth ++ ']' :: rest)) :=
    ends_writeItems _ (ends_lineBreak layout depth (ends_cons (by simp) rest))
  have hitem := hread _ hends
  have hlength := length_le_writeItems layout (depth + 1) (xs.map toJson)
  rw [List.length_map] at hlength
  rw [items, run_bind_of_ok (run_get _), itemsLoop]
  rw [hwrite] at hitem ⊢
  rw [List.cons_append, run_bind_of_ok
    (run_hasItem_first (gap_lineBreak layout (depth + 1)) hopening.notBlank hopening.notEnd),
    if_pos rfl, ← List.cons_append, run_bind_of_ok hitem]
  refine run_bind_of_ok (run_itemsLoop (fun y hy => h y (List.mem_cons_of_mem x hy)) ?_)
  simp only [List.length_append, List.length_cons]
  omega

/-- A list is read when its items are, up to the bracket that closes it. -/
theorem run_inList {body : Reader α} (h : body.run cs = .ok (x, ']' :: rest)) :
    (inList body).run ('[' :: cs) = .ok (x, rest) := by
  have hbody : StateT.run (fun left => (body left).mapError listFault : Reader α) cs =
      .ok (x, ']' :: rest) := by
    show (body.run cs).mapError listFault = _
    rw [h]
    rfl
  have hclose : listEnd.run (']' :: rest) = .ok ((), rest) :=
    run_bind_of_ok (run_peekToken_cons rfl)
  rw [inList, run_bind_of_ok (run_drop _ _), run_bind_of_ok hbody, run_bind_of_ok hclose]
  rfl

/-- A list, from its bracket on, and what is made of its items in the end. -/
theorem run_inList_items {finish : List α → Reader β} {y : β}
    (h : ReadsItems r toJson layout (depth + 1) xs)
    (hfinish : ∀ cs, (finish xs).run cs = .ok (y, cs)) (rest : List Char) :
    (inList (items r >>= finish)).run (write layout depth (.list (xs.map toJson)) ++ rest) =
      .ok (y, rest) := by
  cases xs with
  | nil =>
      have hitems : (items r).run (']' :: rest) = .ok ([], ']' :: rest) := by
        rw [items, run_bind_of_ok (run_get _), itemsLoop]
        exact run_bind_of_ok (run_hasItem_end true gap_nil)
      exact run_inList ((run_bind_of_ok hitems).trans (hfinish _))
  | cons x xs =>
      have hwritten : write layout depth (.list ((x :: xs).map toJson)) ++ rest =
          '[' :: (layout.lineBreak (depth + 1) ++ (write layout (depth + 1) (toJson x) ++
            (writeItems layout (depth + 1) (xs.map toJson) ++
              (layout.lineBreak depth ++ ']' :: rest)))) := by
        simp [write]
      rw [hwritten]
      exact run_inList ((run_bind_of_ok (run_items h rest)).trans (hfinish _))

/-- A list starts with its bracket. -/
theorem exists_write_list (layout : Layout) (depth : Nat) (items : List Json) (rest : List Char) :
    ∃ more, write layout depth (.list items) ++ rest = '[' :: more := by
  cases items <;> exact ⟨_, rfl⟩

end

/-! ## Objects -/

section

variable {entry : String → σ → Reader σ} {start t : σ} {found : List (String × Json)}
  {c : Char} {cs rest gap : List Char} {fuel : Nat}

/-- An object has a first entry where a quote stands. -/
theorem run_hasEntry_first (hgap : Gap gap) (cs : List Char) :
    (hasEntry true).run (gap ++ '\x22' :: cs) = .ok (true, '\x22' :: cs) :=
  run_bind_of_ok (run_peekToken hgap rfl)

/-- An object has another entry after a comma. -/
theorem run_hasEntry_next (hgap : Gap gap) (cs : List Char) :
    (hasEntry false).run (',' :: gap ++ '\x22' :: cs) = .ok (true, '\x22' :: cs) := by
  have hcomma : peekToken.run (',' :: gap ++ '\x22' :: cs) =
      .ok (some ',', ',' :: (gap ++ '\x22' :: cs)) :=
    run_peekToken_cons rfl
  rw [hasEntry, run_bind_of_ok hcomma]
  show ((drop : Reader Unit) >>= fun _ => _).run (',' :: (gap ++ '\x22' :: cs)) = _
  rw [run_bind_of_ok (run_drop _ _), run_bind_of_ok (run_peekToken hgap rfl)]
  rfl

/-- A key that is next starts with its quote. -/
theorem run_hasEntry_key {first : Bool} {f : Bool → Reader α} {key : String} {front : List Char}
    (h : ∀ cs, (hasEntry first).run (front ++ '\x22' :: cs) = .ok (true, '\x22' :: cs)) :
    (hasEntry first >>= f).run (front ++ (writeText key ++ cs)) =
      (f true).run (writeText key ++ cs) :=
  run_bind_of_ok (h _)

/-- An object has no entry more where its end stands. -/
theorem run_hasEntry_end (first : Bool) (hgap : Gap gap) :
    (hasEntry first).run (gap ++ '\x7d' :: rest) = .ok (false, '\x7d' :: rest) :=
  run_bind_of_ok (run_peekToken hgap rfl)

/-- Written entries, taken up one after another, lead from one state to another. -/
inductive Gathers (entry : String → σ → Reader σ) (layout : Layout) (depth : Nat) :
    σ → List (String × Json) → σ → Prop
  | nil (s : σ) : Gathers entry layout depth s [] s
  | cons {s next t : σ} {key : String} {json : Json} {found : List (String × Json)}
      (first : ∀ rest, Ends rest →
        (entry key s).run (layout.colon ++ (write layout depth json ++ rest)) = .ok (next, rest))
      (more : Gathers entry layout depth next found t) :
      Gathers entry layout depth s ((key, json) :: found) t

/-- Entries end where what follows them may. -/
theorem ends_writeEntries (found : List (String × Json)) (h : Ends rest) :
    Ends (writeEntries layout depth found ++ rest) := by
  cases found with
  | nil => exact h
  | cons first found => exact ends_cons (by simp) _

/-- Each entry is written with a character at least. -/
theorem length_le_writeEntries (layout : Layout) (depth : Nat) (found : List (String × Json)) :
    found.length ≤ (writeEntries layout depth found).length := by
  induction found with
  | nil => simp
  | cons first found ih =>
      simp only [writeEntries, List.length_cons, List.length_append]
      omega

/-- Entries are read one after another, by induction on the entries. -/
theorem run_entriesLoop (h : Gathers entry layout (depth + 1) start found t)
    (hfuel : found.length < fuel) :
    (entriesLoop entry fuel false start).run
        (writeEntries layout (depth + 1) found ++ (layout.lineBreak depth ++ '\x7d' :: rest)) =
      .ok (t, '\x7d' :: rest) := by
  induction h generalizing fuel with
  | nil s =>
      obtain ⟨fuel, rfl⟩ := Nat.exists_eq_succ_of_ne_zero (Nat.ne_zero_of_lt hfuel)
      rw [entriesLoop]
      exact run_bind_of_ok (run_hasEntry_end false (gap_lineBreak layout depth))
  | @cons s next t key json found first _ ih =>
      obtain ⟨fuel, rfl⟩ := Nat.exists_eq_succ_of_ne_zero (Nat.ne_zero_of_lt hfuel)
      have hends : Ends (writeEntries layout (depth + 1) found ++
          (layout.lineBreak depth ++ '\x7d' :: rest)) :=
        ends_writeEntries _ (ends_lineBreak layout depth (ends_cons (by simp) rest))
      have hmore := ih (Nat.lt_of_succ_lt_succ hfuel)
      rw [entriesLoop, writeEntries]
      simp only [List.cons_append, List.append_assoc]
      rw [← List.cons_append,
        run_hasEntry_key (run_hasEntry_next (gap_lineBreak layout (depth + 1))), if_pos rfl,
        run_bind_of_ok (run_string key _), run_bind_of_ok (first _ hends), hmore]

/-- The entries of an object are read as they are written. -/
theorem run_entries {key : String} {json : Json}
    (h : Gathers entry layout (depth + 1) start ((key, json) :: found) t) (rest : List Char) :
    (entries entry start).run (layout.lineBreak (depth + 1) ++ (writeText key ++ (layout.colon ++
        (write layout (depth + 1) json ++ (writeEntries layout (depth + 1) found ++
          (layout.lineBreak depth ++ '\x7d' :: rest)))))) =
      .ok (t, '\x7d' :: rest) := by
  cases h with
  | cons first more =>
      have hends : Ends (writeEntries layout (depth + 1) found ++
          (layout.lineBreak depth ++ '\x7d' :: rest)) :=
        ends_writeEntries _ (ends_lineBreak layout depth (ends_cons (by simp) rest))
      have hlength := length_le_writeEntries layout (depth + 1) found
      rw [entries, run_bind_of_ok (run_get _), entriesLoop]
      rw [run_hasEntry_key (run_hasEntry_first (gap_lineBreak layout (depth + 1))), if_pos rfl,
        run_bind_of_ok (run_string key _), run_bind_of_ok (first _ hends)]
      refine run_entriesLoop more ?_
      simp only [List.length_append, List.length_cons]
      omega

/-- An object is read when its entries are, up to the brace that closes it. -/
theorem run_inObject {body : Reader α} {x : α} (h : body.run cs = .ok (x, '\x7d' :: rest)) :
    (inObject body).run ('\x7b' :: cs) = .ok (x, rest) := by
  have hbody : StateT.run (fun left => (body left).mapError objectFault : Reader α) cs =
      .ok (x, '\x7d' :: rest) := by
    show (body.run cs).mapError objectFault = _
    rw [h]
    rfl
  have hclose : objectEnd.run ('\x7d' :: rest) = .ok ((), rest) :=
    run_bind_of_ok (run_peekToken_cons rfl)
  rw [inObject, run_bind_of_ok (run_drop _ _), run_bind_of_ok hbody, run_bind_of_ok hclose]
  rfl

/-- An object, from its brace on, and what is made of its entries in the end. -/
theorem run_inObject_entries {finish : σ → Reader α} {x : α}
    (h : Gathers entry layout (depth + 1) start found t)
    (hfinish : ∀ cs, (finish t).run cs = .ok (x, cs)) (rest : List Char) :
    (inObject (entries entry start >>= finish)).run (write layout depth (.object found) ++ rest) =
      .ok (x, rest) := by
  cases found with
  | nil =>
      cases h
      have hentries : (entries entry start).run ('\x7d' :: rest) = .ok (start, '\x7d' :: rest) := by
        rw [entries, run_bind_of_ok (run_get _), entriesLoop]
        exact run_bind_of_ok (run_hasEntry_end true gap_nil)
      exact run_inObject ((run_bind_of_ok hentries).trans (hfinish _))
  | cons first found =>
      obtain ⟨key, json⟩ := first
      have hwritten : write layout depth (.object ((key, json) :: found)) ++ rest =
          '\x7b' :: (layout.lineBreak (depth + 1) ++ (writeText key ++ (layout.colon ++
            (write layout (depth + 1) json ++ (writeEntries layout (depth + 1) found ++
              (layout.lineBreak depth ++ '\x7d' :: rest)))))) := by
        simp [write]
      rw [hwritten]
      exact run_inObject ((run_bind_of_ok (run_entries h rest)).trans (hfinish _))

/-- An object starts with its brace. -/
theorem exists_write_object (layout : Layout) (depth : Nat) (found : List (String × Json))
    (rest : List Char) : ∃ more, write layout depth (.object found) ++ rest = '\x7b' :: more := by
  cases found <;> exact ⟨_, rfl⟩

end

/-! ## Whole texts -/

/-- A text that a reader takes as a whole. -/
theorem readAll_ofList {r : Reader α} {cs : List Char} {x : α} (h : r.run cs = .ok (x, [])) :
    readAll r (String.ofList cs) = .ok x := by
  unfold readAll
  simp only [String.toList_ofList]
  rw [run_bind_of_ok h]
  rfl

end TypedSql.Json
