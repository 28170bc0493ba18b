import TypedSql.Proofs.FrontMatter.Block

namespace TypedSql.FrontMatter

/-! # Line ends of a front matter

A line may end with a line feed alone or with a carriage return before it. When a text is given the
longer line ends, every line is read as before and what is left after it is given the longer line
ends, too. So the run over the one text goes along with the run over the other.
-/

/-! ## Longer line ends -/

/-- A text with a carriage return put before every line feed. -/
def withReturns (s : List Char) : List Char :=
  s.flatMap fun c => if c = '\n' then ['\r', '\n'] else [c]

/-- A text whose lines end with a carriage return and a line feed. -/
def crlf (s : String) : String := String.ofList (withReturns s.toList)

section

variable {line s : List Char} {c : Char}

@[simp]
theorem withReturns_nil : withReturns [] = [] := rfl

/-- Line ends are made longer one by one. -/
theorem withReturns_append (s rest : List Char) :
    withReturns (s ++ rest) = withReturns s ++ withReturns rest :=
  List.flatMap_append

theorem withReturns_feed (s : List Char) :
    withReturns ('\n' :: s) = '\r' :: '\n' :: withReturns s := rfl

theorem withReturns_cons (hc : c ≠ '\n') (s : List Char) :
    withReturns (c :: s) = c :: withReturns s := by
  rw [withReturns, List.flatMap_cons, if_neg hc]
  rfl

/-- A text without line ends stays as it is. -/
theorem withReturns_line (h : '\n' ∉ line) : withReturns line = line := by
  induction line with
  | nil => rfl
  | cons c line ih =>
      rw [List.mem_cons, not_or] at h
      rw [withReturns_cons (Ne.symm h.1), ih h.2]

/-- Only the empty text becomes empty. -/
theorem withReturns_eq_nil : withReturns s = [] ↔ s = [] := by
  constructor
  · intro h
    cases s with
    | nil => rfl
    | cons c s =>
        by_cases hc : c = '\n'
        · subst hc
          cases h
        · rw [withReturns_cons hc] at h
          cases h
  · rintro rfl
    rfl

theorem dropLeading_suffix (c : Char) (s : List Char) : dropLeading c s <:+ s := by
  cases s with
  | nil => exact List.suffix_refl []
  | cons first rest =>
      rw [dropLeading]
      split
      · exact List.suffix_cons first rest
      · exact List.suffix_refl (first :: rest)

/-- A mark at the front is no line feed, and stays at the front. -/
theorem dropLeading_withReturns (hfeed : c ≠ '\n') (hreturn : c ≠ '\r') (s : List Char) :
    dropLeading c (withReturns s) = withReturns (dropLeading c s) := by
  cases s with
  | nil => rfl
  | cons first rest =>
      by_cases hfirst : first = '\n'
      · subst hfirst
        rw [withReturns_feed, dropLeading, if_neg (Ne.symm hreturn), dropLeading,
          if_neg (Ne.symm hfeed), withReturns_feed]
      · rw [withReturns_cons hfirst, dropLeading, dropLeading]
        by_cases hmark : first = c
        · rw [if_pos hmark, if_pos hmark]
        · rw [if_neg hmark, if_neg hmark, withReturns_cons hfirst]

/-! ## Reading lines -/

/-- A character that is not there is not dropped. -/
theorem dropTrailing_of_not_mem (h : c ∉ s) : dropTrailing c s = s := by
  rcases dropTrailing_cases c s with hs | hs
  · rw [hs] at h
    simp at h
  · exact hs

/-- A character at the end is dropped. -/
theorem dropTrailing_append (c : Char) (s : List Char) : dropTrailing c (s ++ [c]) = s := by
  simp [dropTrailing, dropLeading]

/-- With longer line ends the first line is the same, and the text after it has longer line
ends. -/
theorem nextLine_withReturns (h : '\r' ∉ s) :
    nextLine (withReturns s) = ((nextLine s).1, withReturns (nextLine s).2) := by
  obtain ⟨hfeed, after, hs, hafter⟩ := breakLine_spec s
  generalize (breakLine s).1 = line at hfeed hs
  generalize (breakLine s).2 = rest at hafter
  subst hs
  have hline : '\r' ∉ line := fun hmem => h (List.mem_append_left after hmem)
  rw [nextLine_append hfeed hafter, dropTrailing_of_not_mem hline, withReturns_append,
    withReturns_line hfeed]
  rcases hafter with rfl | ⟨rfl, rfl⟩
  · -- The carriage return comes with the line, and is taken off its end.
    have hlonger : '\n' ∉ line ++ ['\r'] := by simp [hfeed]
    have hnext := nextLine_append hlonger (.inl rfl : LeftAfter (withReturns rest) _)
    rw [dropTrailing_append, List.append_assoc] at hnext
    exact hnext
  · have hnext := nextLine_append hfeed (.inr ⟨rfl, rfl⟩ : LeftAfter [] [])
    rw [dropTrailing_of_not_mem hline] at hnext
    exact hnext

/-- What is left after a line holds no character that the text does not hold. -/
theorem not_mem_nextLine (h : c ∉ s) : c ∉ (nextLine s).2 := by
  obtain ⟨-, after, hs, hafter⟩ := breakLine_spec s
  intro hmem
  rcases hafter with rfl | ⟨-, hend⟩
  · rw [hs] at h
    exact h (List.mem_append_right _ (List.mem_cons_of_mem _ hmem))
  · rw [nextLine, hend] at hmem
    cases hmem

/-- With longer line ends the block declares the same, and is closed exactly when it was. -/
theorem readBlock_withReturns (metadata : Keyed String) (h : '\r' ∉ s) :
    readBlock metadata (withReturns s) =
      (readBlock metadata s).map fun (stored, body) => (stored, withReturns body) := by
  fun_induction readBlock metadata s with
  | case1 => rw [withReturns_nil, readBlock_nil, Option.map_none]
  | case2 metadata s hne hclosing =>
      rw [readBlock, dif_neg (mt withReturns_eq_nil.1 hne), nextLine_withReturns h,
        if_pos hclosing, Option.map_some]
  | case3 metadata s hne hline stored ih =>
      rw [readBlock, dif_neg (mt withReturns_eq_nil.1 hne), nextLine_withReturns h, if_neg hline]
      exact ih (not_mem_nextLine h)

end

/-- Line ends do not matter: a text and the same text with longer line ends declare the same
values, and the body of the one is that of the other with longer line ends. -/
theorem split_crlf {source : String} (h : '\r' ∉ source.toList) :
    split (crlf source) = ⟨(split source).metadata, crlf (split source).body⟩ := by
  have hlonger : dropLeading (Char.ofNat 0xFEFF) (crlf source).toList =
      withReturns (dropLeading (Char.ofNat 0xFEFF) source.toList) := by
    rw [crlf, String.toList_ofList]
    exact dropLeading_withReturns (by decide) (by decide) _
  have htext : '\r' ∉ dropLeading (Char.ofNat 0xFEFF) source.toList :=
    fun hmem => h ((dropLeading_suffix _ _).mem hmem)
  unfold split
  rw [hlonger]
  generalize dropLeading (Char.ofNat 0xFEFF) source.toList = text at htext
  dsimp only
  rw [nextLine_withReturns htext, readBlock_withReturns _ (not_mem_nextLine htext)]
  dsimp only
  split
  · cases readBlock Keyed.empty (nextLine text).2 with
    | none => simp [crlf]
    | some found => simp [crlf]
  · simp [crlf]

/-- A block with a comment, a quoted value and a line without a colon, closed with blanks behind the
dashes; and a block that is never closed. -/
theorem split_crlf_block :
    let closed := split (crlf "---\np: 'a|b'\n# q: c\n\nd\n--- \nselect 1\n")
    let unclosed := split (crlf "---\np: string\nselect 1")
    (closed.metadata = .ofList [("p", "a|b")] ∧ closed.body = "select 1\r\n") ∧
      unclosed.metadata = .empty ∧ unclosed.body = "---\r\np: string\r\nselect 1" := by
  intro closed unclosed
  have hclosed : closed = _ := split_crlf (by decide +kernel)
  have hunclosed : unclosed = _ := split_crlf (by decide +kernel)
  rw [hclosed, hunclosed]
  decide +kernel

end TypedSql.FrontMatter
