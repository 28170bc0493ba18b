import TypedSql.Proofs.FrontMatter.Block

namespace TypedSql.FrontMatter

open Text

/-! # Entries written as a front matter

Entries that are written line by line, each value in double quotes, are read back as they are, and
so is the text that follows them. The quotes keep a value from being trimmed, and a key only has to
be what the reader makes of the text before the first colon.
-/

/-! ## What is written -/

/-- The line that declares a value under a key. -/
def entryLine (key value : String) : String := key ++ ": \"" ++ value ++ "\""

/-- A file with a line for every entry between two lines of dashes, and a body after them. -/
def written (metadata : Keyed String) (body : String) : String :=
  "---\n" ++ String.join (metadata.entries.map fun (key, value) => entryLine key value ++ "\n") ++
    "---\n" ++ body

/-- A key that can stand in a line of its own: it has neither a colon nor a line feed, no blanks
around it, and does not make the line a comment. -/
structure PlainKey (key : String) : Prop where
  colon : ':' ∉ key.toList
  feed : '\n' ∉ key.toList
  trimmed : trim key.toList = key.toList
  comment : key.toList.head? ≠ some '#'

instance (key : String) : Decidable (PlainKey key) :=
  decidable_of_iff
    (':' ∉ key.toList ∧ '\n' ∉ key.toList ∧ trim key.toList = key.toList ∧
      key.toList.head? ≠ some '#')
    ⟨fun ⟨colon, feed, trimmed, comment⟩ => ⟨colon, feed, trimmed, comment⟩,
      fun h => ⟨h.colon, h.feed, h.trimmed, h.comment⟩⟩

section

variable {s : List Char} {c : Char} {key value body : String}

/-! ## Texts without blanks around them -/

/-- Text that starts without a blank stays so with more after it. -/
theorem trimLeft_append (h : trimLeft s = s) (hc : isBlank c = false) (rest : List Char) :
    trimLeft (s ++ c :: rest) = s ++ c :: rest := by
  have hc' : ¬ isBlank c = true := by simp [hc]
  rw [trimLeft] at h
  rw [trimLeft, List.dropWhile_append, h, List.dropWhile_cons_of_neg hc']
  split
  · next hempty => rw [List.isEmpty_iff.1 hempty, List.nil_append]
  · rfl

/-- Text that ends without a blank is not trimmed there. -/
theorem trimRight_append (hc : isBlank c = false) (s : List Char) :
    trimRight (s ++ [c]) = s ++ [c] := by
  refine trimRight_eq_iff.2 ⟨⟨[], by simp, (List.append_nil _).symm⟩, ?_⟩
  simpa using hc

theorem length_trimRight_le (s : List Char) : (trimRight s).length ≤ s.length := by
  calc
    (trimRight s).length = (s.reverse.dropWhile isBlank).length := List.length_reverse
    _ ≤ s.reverse.length := List.length_dropWhile_le isBlank s.reverse
    _ = s.length := List.length_reverse

/-- A text that is left alone by trimming is so at its front. -/
theorem trimLeft_of_trim (h : trim s = s) : trimLeft s = s := by
  have hsuffix : trimLeft s <:+ s := List.dropWhile_suffix isBlank
  refine hsuffix.eq_of_length_le ?_
  calc
    s.length = (trim s).length := by rw [h]
    _ ≤ (trimLeft s).length := length_trimRight_le _

/-! ## One line -/

/-- An entry is written as its key, a colon, and its value in quotes. -/
theorem toList_entryLine (key value : String) :
    (entryLine key value).toList =
      key.toList ++ ':' :: ' ' :: '\x22' :: (value.toList ++ ['\x22']) := by
  simp [entryLine, String.toList_append]

/-- There are no blanks around an entry. -/
theorem trim_entryLine (h : PlainKey key) (value : String) :
    trim (entryLine key value).toList = (entryLine key value).toList := by
  have hleft := trimLeft_append (c := ':') (trimLeft_of_trim h.trimmed) (by decide)
    (' ' :: '\x22' :: (value.toList ++ ['\x22']))
  have hright := trimRight_append (c := '\x22') (by decide)
    (key.toList ++ ':' :: ' ' :: '\x22' :: value.toList)
  rw [List.append_assoc] at hright
  rw [toList_entryLine, trim, hleft]
  exact hright

/-- The line of an entry declares the entry. -/
theorem declares_entryLine (h : PlainKey key) (value : String) :
    Declares (entryLine key value).toList key value := by
  have hline : trim (entryLine key value).toList =
      key.toList ++ ':' :: (' ' :: '\x22' :: (value.toList ++ ['\x22'])) := by
    rw [trim_entryLine h, toList_entryLine]
  have hcomment : (trim (entryLine key value).toList).head? ≠ some '#' := by
    rw [hline]
    cases hkey : key.toList with
    | nil => simp
    | cons first rest => simpa [hkey] using h.comment
  -- The blank before the opening quote goes, and none is behind the closing one.
  have hvalue : Unquoted (trim (' ' :: '\x22' :: (value.toList ++ ['\x22']))) value.toList := by
    have hquoted := trimRight_append (c := '\x22') (by decide) ('\x22' :: value.toList)
    have htrim : trim (' ' :: '\x22' :: (value.toList ++ ['\x22'])) =
        '\x22' :: (value.toList ++ ['\x22']) := hquoted
    rw [htrim]
    exact .quoted value.toList (.inl rfl)
  have hdeclares := Declares.intro hline hcomment h.colon hvalue
  rwa [h.trimmed, String.ofList_toList, String.ofList_toList] at hdeclares

/-- The line of an entry is no delimiter. -/
theorem not_isDashes_entryLine (key value : String) : ¬ IsDashes (entryLine key value).toList := by
  rintro ⟨blanks, hblanks, hline⟩
  have hcolon : ':' ∈ ['-', '-', '-'] ++ blanks := by
    rw [← hline, toList_entryLine]
    simp
  rcases List.mem_append.1 hcolon with hdash | hblank
  · revert hdash
    decide
  · exact absurd (hblanks ':' hblank) (by decide)

/-- An entry is written on one line. -/
theorem feed_entryLine (h : PlainKey key) (hvalue : '\n' ∉ value.toList) :
    '\n' ∉ (entryLine key value).toList := by
  rw [toList_entryLine]
  simp [h.feed, hvalue]

end

/-! ## A written file -/

section

variable {metadata : Keyed String}

/-- The lines of the entries. -/
def entryLines (entries : List (String × String)) : List (List Char) :=
  entries.map fun (key, value) => (entryLine key value).toList

/-- The lines of entries declare the entries. -/
theorem filterMap_entryLines {entries : List (String × String)}
    (hkeys : ∀ entry ∈ entries, PlainKey entry.1) :
    (entryLines entries).filterMap declaration? = entries := by
  induction entries with
  | nil => rfl
  | cons entry entries ih =>
      obtain ⟨hkey, hrest⟩ := List.forall_mem_cons.1 hkeys
      rw [entryLines, List.map_cons,
        List.filterMap_cons_some (declares_entryLine hkey entry.2).declaration?]
      exact congrArg (entry :: ·) (ih hrest)

/-- A file is written with its entries between two delimiters before its body. -/
theorem toList_written (metadata : Keyed String) (body : String) :
    (written metadata body).toList =
      ['-', '-', '-'] ++ '\n' :: ((entryLines metadata.entries).flatMap (· ++ ['\n']) ++
        (['-', '-', '-'] ++ '\n' :: body.toList)) := by
  simp [written, entryLines, String.toList_append, String.toList_join, List.flatMap_map]

/-- What is written is a front matter of the entries before the body. -/
theorem fenced_written (hkeys : ∀ entry ∈ metadata.entries, PlainKey entry.1)
    (hvalues : ∀ entry ∈ metadata.entries, '\n' ∉ entry.2.toList) (body : String) :
    Fenced (unmarked (written metadata body)) (entryLines metadata.entries) body.toList := by
  have hunmarked : unmarked (written metadata body) = (written metadata body).toList := by
    rw [unmarked, toList_written]
    rfl
  rw [hunmarked, toList_written]
  have hdashes : '\n' ∉ ['-', '-', '-'] ∧ IsDashes ['-', '-', '-'] := by decide
  refine .intro hdashes ?_ hdashes (.inl rfl)
  intro line hline
  obtain ⟨entry, hentry, rfl⟩ := List.mem_map.1 hline
  exact ⟨feed_entryLine (hkeys entry hentry) (hvalues entry hentry), not_isDashes_entryLine _ _⟩

end

/-- A file that is written from entries and a body is split into the same entries, in their order,
and the same body. -/
theorem split_written {metadata : Keyed String} (hkeys : ∀ key ∈ metadata.keys, PlainKey key)
    (hvalues : ∀ entry ∈ metadata.entries, '\n' ∉ entry.2.toList) (body : String) :
    split (written metadata body) = ⟨metadata, body⟩ := by
  have hplain : ∀ entry ∈ metadata.entries, PlainKey entry.1 := fun entry hentry =>
    hkeys entry.1 (List.mem_map_of_mem hentry)
  rw [(fenced_written hplain hvalues body).split, filterMap_entryLines hplain,
    Keyed.ofList_entries, String.ofList_toList]

/-- An empty key, a key of dashes, and values that look like an entry, a delimiter, a quoted text
and a comment; the body starts with a delimiter. -/
theorem split_written_lookalikes :
    let metadata : Keyed String :=
      .ofList [("", "a: b"), ("---", "---"), ("p?", "\"x\""), ("q #", " # "), ("r", "")]
    let body := "---\nselect 1"
    written metadata body =
        "---\n: \"a: b\"\n---: \"---\"\np?: \"\"x\"\"\nq #: \" # \"\nr: \"\"\n" ++
          "---\n---\nselect 1" ∧
      split (written metadata body) = ⟨metadata, body⟩ := by
  intro metadata body
  have hkeys : ∀ key ∈ metadata.keys, PlainKey key := by decide +kernel
  have hvalues : ∀ entry ∈ metadata.entries, '\n' ∉ entry.2.toList := by decide +kernel
  exact ⟨by decide +kernel, split_written hkeys hvalues body⟩

end TypedSql.FrontMatter
