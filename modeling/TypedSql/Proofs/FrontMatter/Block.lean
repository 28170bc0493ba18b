import TypedSql.Proofs.FrontMatter.Lines
import TypedSql.Proofs.Keyed

namespace TypedSql.FrontMatter

open Text

/-! # Files with a front matter

A front matter is told by where its lines stand in the text: an opening delimiter, lines that are no
delimiters, and a closing one. The text after that is the body and the lines between are what is
declared. A text that cannot be cut in this way is all body.
-/

/-! ## Reading the lines of a block -/

/-- Stores declarations one after another. -/
def store (metadata : Keyed String) (entries : List (String × String)) : Keyed String :=
  entries.foldl (fun k entry => k.insert entry.1 entry.2) metadata

section

variable {metadata : Keyed String} {line after body rest : List Char} {block : List (List Char)}

theorem nextLine_append (h : '\n' ∉ line) (hafter : LeftAfter body after) :
    nextLine (line ++ after) = (dropTrailing '\r' line, body) := by
  rw [nextLine, breakLine_append h hafter]

theorem readBlock_nil : readBlock metadata [] = none := by
  rw [readBlock, dif_pos rfl]

theorem ne_nil_of_isDelimiter (h : isDelimiter line = true) : line ≠ [] := by
  rintro rfl
  revert h
  decide

/-- A delimiter closes the block, and the body is what is left behind it. -/
theorem readBlock_closing (h : '\n' ∉ line) (hafter : LeftAfter body after)
    (hline : isDelimiter line = true) :
    readBlock metadata (line ++ after) = some (metadata, body) := by
  have hne : line ++ after ≠ [] := by
    simp [ne_nil_of_isDelimiter hline]
  rw [readBlock, dif_neg hne, nextLine_append h hafter, isDelimiter_dropTrailing (by decide),
    if_pos hline]

/-- A line that is no delimiter stores what it declares. -/
theorem readBlock_line (h : '\n' ∉ line) (hline : isDelimiter line = false) (rest : List Char) :
    readBlock metadata (line ++ '\n' :: rest) =
      readBlock (store metadata (declaration? line).toList) rest := by
  have hne : line ++ '\n' :: rest ≠ [] := by simp
  rw [readBlock, dif_neg hne, nextLine_append h (.inl rfl), isDelimiter_dropTrailing (by decide),
    hline, declaration?_dropTrailing (by decide)]
  cases declaration? line <;> rfl

/-- Lines that are no delimiters store what they declare, one after another. -/
theorem readBlock_lines (metadata : Keyed String)
    (hblock : ∀ line ∈ block, '\n' ∉ line ∧ isDelimiter line = false)
    (rest : List Char) :
    readBlock metadata (block.flatMap (· ++ ['\n']) ++ rest) =
      readBlock (store metadata (block.filterMap declaration?)) rest := by
  induction block generalizing metadata with
  | nil => rfl
  | cons line block ih =>
      obtain ⟨hfeed, hline⟩ := hblock line List.mem_cons_self
      have hrest := ih (store metadata (declaration? line).toList)
        fun other hother => hblock other (List.mem_cons_of_mem line hother)
      rw [List.flatMap_cons, List.append_assoc, List.append_assoc, List.singleton_append,
        readBlock_line hfeed hline, hrest, List.filterMap_cons]
      cases declaration? line <;> rfl

/-- A block that is closed consists of lines. -/
theorem exists_lines {s : List Char} {stored : Keyed String}
    (h : readBlock metadata s = some (stored, body)) :
    ∃ (block : List (List Char)) (closing after : List Char),
      s = block.flatMap (· ++ ['\n']) ++ (closing ++ after) ∧
        (∀ line ∈ block, '\n' ∉ line ∧ isDelimiter line = false) ∧
        '\n' ∉ closing ∧ isDelimiter closing = true ∧ LeftAfter body after := by
  revert h
  fun_induction readBlock metadata s with
  | case1 => exact fun h => nomatch h
  | case2 metadata s hne hclosing =>
      -- The first line closes the block, which has no lines.
      intro h
      obtain ⟨hfeed, after, hs, hafter⟩ := breakLine_spec s
      cases h
      rw [nextLine, isDelimiter_dropTrailing (by decide)] at hclosing
      exact ⟨[], (breakLine s).1, after, hs, by simp, hfeed, hclosing, hafter⟩
  | case3 metadata s hne hline stored' ih =>
      -- The first line comes before the lines that are read after it.
      intro h
      obtain ⟨hfeed, after, hs, hafter⟩ := breakLine_spec s
      obtain ⟨block, closing, after', hrest, hblock, hclosing⟩ := ih h
      rw [nextLine, isDelimiter_dropTrailing (by decide), Bool.not_eq_true] at hline
      rcases hafter with rfl | ⟨rfl, hend⟩
      · refine ⟨(breakLine s).1 :: block, closing, after', ?_, ?_, hclosing⟩
        · rw [List.flatMap_cons, List.append_assoc, List.append_assoc, ← hrest]
          exact hs
        · rw [List.forall_mem_cons]
          exact ⟨⟨hfeed, hline⟩, hblock⟩
      · -- At the end of the text no block is closed.
        rw [nextLine, hend, readBlock_nil] at h
        cases h

end

/-! ## The parts of a file -/

/-- Three dashes, with nothing but blanks after them. -/
def IsDashes (line : List Char) : Prop :=
  ∃ blanks, (∀ c ∈ blanks, isBlank c = true) ∧ line = ['-', '-', '-'] ++ blanks

theorem isDelimiter_iff {line : List Char} : isDelimiter line = true ↔ IsDashes line := by
  rw [isDelimiter, beq_iff_eq, trimRight_eq_iff]
  refine and_iff_left ?_
  rintro c ⟨⟩
  decide

instance (line : List Char) : Decidable (IsDashes line) :=
  decidable_of_iff (isDelimiter line = true) isDelimiter_iff

theorem isDelimiter_eq_false_iff {line : List Char} :
    isDelimiter line = false ↔ ¬ IsDashes line := by
  rw [← isDelimiter_iff, Bool.not_eq_true]

/-- A text with a front matter: a line of dashes, the lines of the block, and the next line of
dashes, which the body follows. -/
inductive Fenced : List Char → List (List Char) → List Char → Prop
  | intro {opening closing after body : List Char} {block : List (List Char)}
      (hopening : '\n' ∉ opening ∧ IsDashes opening)
      (hblock : ∀ line ∈ block, '\n' ∉ line ∧ ¬ IsDashes line)
      (hclosing : '\n' ∉ closing ∧ IsDashes closing) (hafter : LeftAfter body after) :
      Fenced (opening ++ '\n' :: (block.flatMap (· ++ ['\n']) ++ (closing ++ after))) block body

/-- The parts of a text. -/
inductive TakenApart (text : List Char) : Source → Prop
  | block {block : List (List Char)} {body : List Char} {entries : List (String × String)}
      {metadata : Keyed String} (hfenced : Fenced text block body)
      (hdeclared : Declared block entries) (hmetadata : metadata.FilledFrom entries) :
      TakenApart text ⟨metadata, String.ofList body⟩
  | whole (h : ∀ block body, ¬ Fenced text block body) :
      TakenApart text ⟨Keyed.empty, String.ofList text⟩

/-- A text without the byte order mark in front, if there is one. -/
def unmarked (source : String) : List Char := dropLeading (Char.ofNat 0xFEFF) source.toList

section

variable {source : String} {block : List (List Char)} {body : List Char}

theorem Fenced.split (h : Fenced (unmarked source) block body) :
    split source = ⟨Keyed.ofList (block.filterMap declaration?), String.ofList body⟩ := by
  generalize htext : unmarked source = text at h
  rw [unmarked] at htext
  cases h with
  | @intro opening closing after body block hopening hblock hclosing hafter =>
      have hlines : ∀ line ∈ block, '\n' ∉ line ∧ isDelimiter line = false := by
        simpa only [isDelimiter_eq_false_iff] using hblock
      rw [FrontMatter.split, htext, nextLine_append hopening.1 (.inl rfl)]
      dsimp only
      rw [isDelimiter_dropTrailing (by decide), if_pos (isDelimiter_iff.2 hopening.2),
        readBlock_lines _ hlines,
        readBlock_closing hclosing.1 hafter (isDelimiter_iff.2 hclosing.2)]
      rfl

/-- A block that is read from a text is cut out of it. -/
theorem exists_fenced {stored : Keyed String}
    (hopening : isDelimiter (nextLine (unmarked source)).1 = true)
    (h : readBlock Keyed.empty (nextLine (unmarked source)).2 = some (stored, body)) :
    ∃ block, Fenced (unmarked source) block body := by
  obtain ⟨hfeed, after, hs, hafter⟩ := breakLine_spec (unmarked source)
  rw [nextLine] at hopening h
  rw [isDelimiter_dropTrailing (by decide), isDelimiter_iff] at hopening
  obtain ⟨block, closing, after', hrest, hblock, hclosing, hdashes, hafter'⟩ := exists_lines h
  rcases hafter with rfl | ⟨rfl, hend⟩
  · refine ⟨block, ?_⟩
    rw [hs, hrest]
    have hlines : ∀ line ∈ block, '\n' ∉ line ∧ ¬ IsDashes line := by
      simpa only [isDelimiter_eq_false_iff] using hblock
    exact .intro ⟨hfeed, hopening⟩ hlines ⟨hclosing, isDelimiter_iff.1 hdashes⟩ hafter'
  · rw [hend, readBlock_nil] at h
    cases h

/-- A text that cannot be cut is all body. -/
theorem split_of_not_fenced (h : ∀ block body, ¬ Fenced (unmarked source) block body) :
    split source = ⟨Keyed.empty, String.ofList (unmarked source)⟩ := by
  unfold FrontMatter.split
  dsimp only
  split
  · next hopening =>
      split
      · next stored body hblock =>
          obtain ⟨block, hfenced⟩ := exists_fenced hopening hblock
          exact absurd hfenced (h block body)
      · rfl
  · rfl

end

/-- A file is taken apart into exactly the parts that its lines tell: with a front matter, what its
lines declare and the text after it; else nothing and the whole text. -/
theorem split_eq_iff {source : String} {parts : Source} :
    split source = parts ↔ TakenApart (unmarked source) parts := by
  constructor
  · rintro rfl
    by_cases h : ∃ block body, Fenced (unmarked source) block body
    · obtain ⟨block, body, hfenced⟩ := h
      rw [hfenced.split]
      exact .block hfenced (declared_iff.2 rfl) (Keyed.filledFrom_iff.2 rfl)
    · have hnone : ∀ block body, ¬ Fenced (unmarked source) block body := by
        intro block body hfenced
        exact h ⟨block, body, hfenced⟩
      rw [split_of_not_fenced hnone]
      exact .whole hnone
  · -- However the text is cut, its parts are those that are read.
    rintro (⟨hfenced, hdeclared, hmetadata⟩ | hnone)
    · rw [hfenced.split, ← declared_iff.1 hdeclared, ← Keyed.filledFrom_iff.1 hmetadata]
    · exact split_of_not_fenced hnone

/-- Carriage returns, a comment, quotes, and blanks behind a delimiter. -/
example : (split "---\r\n# types\r\nname: 'a|b'\r\n---  \r\nselect 1").metadata =
    .ofList [("name", "a|b")] := by
  decide +kernel

end TypedSql.FrontMatter
