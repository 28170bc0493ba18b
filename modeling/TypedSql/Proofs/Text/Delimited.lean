namespace TypedSql.Text

/-! # Texts that show where they end

A writer is delimited when what it writes can be told from whatever comes after it: two texts that
start with something it wrote are equal only if the same was written and the same follows. What
follows may have to start in a certain way, as a word must be followed by something that is no part
of it.
-/

section

variable {α : Type} {valid : α → Prop} {after : List Char → Prop} {write : α → List Char}

/-- What is written of valid values, in front of the texts that may come after, is told by the whole
text. -/
def Delimited (valid : α → Prop) (after : List Char → Prop) (write : α → List Char) : Prop :=
  ∀ a b s t, valid a → valid b → after s → after t → write a ++ s = write b ++ t → a = b ∧ s = t

/-- Nothing is written at the front of a text. -/
def Stops (valid : α → Prop) (write : α → List Char) (s : List Char) : Prop :=
  ∀ a r, valid a → write a ++ r ≠ s

/-- Pieces between separators with one more at the end are pieces that each have one at their
end. -/
theorem intercalate_concat {pieces : List (List Char)} (hne : pieces ≠ []) (c : Char) :
    [c].intercalate pieces ++ [c] = pieces.flatMap (· ++ [c]) := by
  induction pieces with
  | nil => exact absurd rfl hne
  | cons piece pieces ih =>
      cases pieces with
      | nil => simp
      | cons next pieces =>
          have hrest := ih (List.cons_ne_nil next pieces)
          rw [List.intercalate_cons_cons, List.append_assoc, hrest,
            List.flatMap_cons (x := piece)]

/-- A text ends where the first mark is. -/
theorem eq_of_marked {mark : Char → Prop} {l l' s t : List Char} (hl : ∀ c ∈ l, ¬ mark c)
    (hl' : ∀ c ∈ l', ¬ mark c) (hs : ∃ c ∈ s.head?, mark c) (ht : ∃ c ∈ t.head?, mark c)
    (h : l ++ s = l' ++ t) : l = l' ∧ s = t := by
  induction l generalizing l' with
  | nil =>
      cases l' with
      | nil => exact ⟨rfl, h⟩
      | cons c l' =>
          obtain ⟨d, hd, hmark⟩ := hs
          rw [List.nil_append] at h
          rw [h, List.cons_append, List.head?_cons, Option.mem_some_iff] at hd
          exact absurd hmark (hl' d (hd ▸ List.mem_cons_self))
  | cons c l ih =>
      cases l' with
      | nil =>
          obtain ⟨d, hd, hmark⟩ := ht
          rw [List.nil_append] at h
          rw [← h, List.cons_append, List.head?_cons, Option.mem_some_iff] at hd
          exact absurd hmark (hl d (hd ▸ List.mem_cons_self))
      | cons c' l' =>
          rw [List.cons_append, List.cons_append, List.cons.injEq] at h
          obtain ⟨rfl, hrest⟩ := h
          obtain ⟨rfl, rfl⟩ := ih (fun d hd => hl d (List.mem_cons_of_mem c hd))
            (fun d hd => hl' d (List.mem_cons_of_mem c hd)) hrest
          exact ⟨rfl, rfl⟩

/-- A text without some character ends where that character is. -/
theorem eq_of_char {c : Char} {l l' s t : List Char} (hl : c ∉ l) (hl' : c ∉ l')
    (h : l ++ c :: s = l' ++ c :: t) : l = l' ∧ s = t := by
  have hmark : ∀ {l : List Char}, c ∉ l → ∀ d ∈ l, ¬ d = c := by
    rintro l hl d hd rfl
    exact hl hd
  obtain ⟨hfront, hback⟩ :=
    eq_of_marked (hmark hl) (hmark hl') ⟨c, rfl, rfl⟩ ⟨c, rfl, rfl⟩ h
  exact ⟨hfront, (List.cons.inj hback).2⟩

/-- In front of what may follow, values may follow one another. -/
theorem after_flatMap {as : List α} {s : List Char}
    (hafter : ∀ a s, valid a → after s → after (write a ++ s)) (has : ∀ a ∈ as, valid a)
    (hs : after s) : after (as.flatMap write ++ s) := by
  induction as with
  | nil => exact hs
  | cons a as ih =>
      rw [List.flatMap_cons, List.append_assoc]
      have hvalid : ∀ b ∈ as, valid b := fun b hb => has b (List.mem_cons_of_mem a hb)
      exact hafter a _ (has a List.mem_cons_self) (ih hvalid)

/-- One value after another is told by the text, in front of anything that does not look like one
more of them. -/
theorem Delimited.list (h : Delimited valid after write)
    (hafter : ∀ a s, valid a → after s → after (write a ++ s)) :
    Delimited (fun as => ∀ a ∈ as, valid a) (fun s => after s ∧ Stops valid write s)
      (List.flatMap write) := by
  intro as bs s t has hbs hs ht heq
  induction as generalizing bs with
  | nil =>
      cases bs with
      | nil => exact ⟨rfl, heq⟩
      | cons b bs =>
          rw [List.flatMap_cons, List.append_assoc] at heq
          exact absurd heq.symm (hs.2 b _ (hbs b List.mem_cons_self))
  | cons a as ih =>
      have ha := has a List.mem_cons_self
      have has' : ∀ x ∈ as, valid x := fun x hx => has x (List.mem_cons_of_mem a hx)
      cases bs with
      | nil =>
          rw [List.flatMap_cons, List.append_assoc] at heq
          exact absurd heq (ht.2 a _ ha)
      | cons b bs =>
          have hb := hbs b List.mem_cons_self
          have hbs' : ∀ x ∈ bs, valid x := fun x hx => hbs x (List.mem_cons_of_mem b hx)
          rw [List.flatMap_cons, List.flatMap_cons, List.append_assoc, List.append_assoc] at heq
          obtain ⟨rfl, hnext⟩ := h a b _ _ ha hb (after_flatMap hafter has' hs.1)
            (after_flatMap hafter hbs' ht.1) heq
          obtain ⟨rfl, rfl⟩ := ih bs has' hbs' hnext
          exact ⟨rfl, rfl⟩

end

end TypedSql.Text
