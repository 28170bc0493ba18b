import TypedSql.Proofs.Token.Reading

namespace TypedSql.Lexer

open Text Outcome

/-! # Texts that go on after a semicolon

No token goes on over a semicolon that did not do so before: where the text after a token ends, the
token is read in the same way when a semicolon follows, with few exceptions, and none of these gives
a name to a placeholder.
-/

section

variable {p : Char → Bool} {quote : Char} {escapes : Bool} {s content left u : List Char}

/-! ## Classes of characters -/

/-- A run of characters of a class without the semicolon ends in front of one. -/
theorem takeWhile_semicolon (hp : p ';' = false) (s u : List Char) :
    (s ++ ';' :: u).takeWhile p = s.takeWhile p := by
  induction s with
  | nil => simp [hp]
  | cons c s ih => cases hc : p c <;> simp [hc, ih]

theorem dropWhile_semicolon (hp : p ';' = false) (s u : List Char) :
    (s ++ ';' :: u).dropWhile p = s.dropWhile p ++ ';' :: u := by
  induction s with
  | nil => simp [hp]
  | cons c s ih => cases hc : p c <;> simp [hc, ih]

/-- No dialect lets a semicolon stand in a name. -/
theorem isNamePart_semicolon (d : Dialect) : d.isNamePart ';' = false := by
  cases d <;> simp [Dialect.isNamePart, Dialect.isNameStart, isAlphabetic_of_ascii]

/-- No dialect lets a semicolon stand in an operator. -/
theorem isOperatorPart_semicolon (d : Dialect) : d.isOperatorPart ';' = false := by
  cases d <;> decide

theorem isTagChar_semicolon : isTagChar ';' = false := by
  simp [isTagChar, isAlphanumeric_of_ascii]

theorem isNumeral_semicolon : isNumeral ';' = false := by
  simp [isNumeral_of_ascii]

/-- A character other than the semicolon stands in front already without it. -/
theorem eq_cons_of_semicolon {c : Char} {after : List Char} (hc : c ≠ ';')
    (h : s ++ ';' :: u = c :: after) : ∃ rest, s = c :: rest ∧ after = rest ++ ';' :: u := by
  cases s with
  | nil => exact absurd (List.cons.inj h).1.symm hc
  | cons first rest =>
      cases h
      exact ⟨rest, rfl, rfl⟩

/-! ## Strings -/

/-- A string that is closed is closed at the same quote when the text goes on. -/
theorem stringContent_prolonged (hq : quote ≠ ';')
    (h : stringContent quote escapes s = some (content, left)) :
    stringContent quote escapes (s ++ ';' :: u) = some (content, left ++ ';' :: u) := by
  fun_induction stringContent quote escapes s generalizing content left with
  | case1 => simp at h
  | case2 =>
      cases h
      simp [stringContent, Ne.symm hq]
  | case3 => simp at h
  | case4 rest ih =>
      obtain ⟨tail, htail, rfl⟩ := map_cons_eq_some h
      simp [stringContent, ih htail]
  | case5 next rest hnext =>
      cases h
      simp [stringContent, hnext]
  | case6 c next rest hc hesc ih =>
      obtain ⟨tail, htail, rfl⟩ := map_cons_eq_some h
      simp only [List.cons_append, stringContent, if_neg hc, if_pos hesc, ih htail]
      rfl
  | case7 c next rest hc hesc ih =>
      obtain ⟨tail, htail, rfl⟩ := map_cons_eq_some h
      have hrest := ih htail
      rw [List.cons_append] at hrest
      simp only [List.cons_append, stringContent, if_neg hc, if_neg hesc, hrest]
      rfl

/-- A string between tripled quotes is closed at the same quotes when the text goes on. -/
theorem tripleContent_prolonged {run : Nat} {gathered : List Char}
    (h : tripleContent quote escapes run gathered s = some (content, left)) :
    tripleContent quote escapes run gathered (s ++ ';' :: u) =
      some (content, left ++ ';' :: u) := by
  fun_induction tripleContent quote escapes run gathered s with
  | case1 => simp at h
  | case2 gathered rest =>
      cases h
      simp [tripleContent_quote]
  | case3 run gathered rest hrun ih =>
      rw [List.cons_append, tripleContent_quote, if_neg hrun]
      exact ih h
  | case4 => simp at h
  | case5 run gathered c hc hesc next rest ih =>
      rw [List.cons_append, List.cons_append, tripleContent.eq_def]
      simp only [if_neg hc, if_pos hesc]
      exact ih h
  | case6 run gathered c rest hc hesc ih =>
      rw [List.cons_append, tripleContent.eq_def]
      simp only [if_neg hc, if_neg hesc]
      exact ih h

/-- A string of any kind that is read is read the same when the text goes on. -/
theorem StringRead.prolonged {triple : Bool} {mark : StringMark} {rest : List Char} {t : Token}
    (hq : IsQuote quote) (h : StringRead triple mark escapes quote rest t left) :
    StringRead triple mark escapes quote (rest ++ ';' :: u) t (left ++ ';' :: u) := by
  have hne : quote ≠ ';' := by
    rcases hq with rfl | rfl <;> decide
  cases h with
  | plain hopen h =>
      refine .plain ?_ (stringContent_prolonged hne h)
      -- The quotes that follow stand before the semicolon.
      intro htriple after heq
      obtain ⟨rest, rfl, htail⟩ := eq_cons_of_semicolon hne heq
      obtain ⟨rest, rfl, -⟩ := eq_cons_of_semicolon hne htail.symm
      exact hopen htriple rest rfl
  | tripled htriple h => exact .tripled htriple (tripleContent_prolonged h)

/-! ## Strings with code point escapes -/

/-- A run of digits ends in front of a semicolon. -/
theorem digitRun_prolonged {digit? : Char → Option Nat} {base limit n count : Nat}
    (hdigit : digit? ';' = none) (h : digitRun digit? base limit s = (n, count, left)) :
    digitRun digit? base limit (s ++ ';' :: u) = (n, count, left ++ ';' :: u) := by
  fun_induction digitRun digit? base limit s generalizing n count left with
  | case1 limit c rest hc =>
      cases h
      simp [digitRun, hc]
  | case2 limit c rest v hv n count left hrun ih =>
      cases h
      simp [digitRun, hv, ih hrun]
  | case3 limit s hs =>
      cases h
      cases limit with
      | zero => simp [digitRun]
      | succ limit =>
          cases s with
          | nil => simp [digitRun, hdigit]
          | cons c s => exact absurd rfl (hs limit c s rfl)

/-- An escape of a fixed number of digits does not look beyond them. -/
theorem fixedEscape_prolonged {count : Nat} {c : Char} (h : fixedEscape count s = some (c, left)) :
    fixedEscape count (s ++ ';' :: u) = some (c, left ++ ';' :: u) := by
  unfold fixedEscape at h ⊢
  split at h
  · simp at h
  · next hlen =>
      have hle : count ≤ s.length := by omega
      have hlen' : ¬ (s ++ ';' :: u).length < count := by
        rw [List.length_append]
        omega
      rw [if_neg hlen', List.take_append_of_le_length hle, List.drop_append_of_le_length hle]
      rcases hv : (hexValue? (s.take count)).bind charOf? with _ | v
      · simp [hv] at h
      · simp only [hv, Option.pure_def, Option.bind_eq_bind, Option.bind_some] at h ⊢
        cases h
        rfl

/-- A value that is made of a number is the same where another text is left. -/
theorem map_byteChar?_prolonged {n : Nat} {c : Char} {rest : List Char}
    (h : (byteChar? n).map (·, rest) = some (c, left)) :
    (byteChar? n).map (·, rest ++ ';' :: u) = some (c, left ++ ';' :: u) := by
  obtain ⟨e, he, heq⟩ := Option.map_eq_some_iff.1 h
  cases heq
  rw [he]
  rfl

/-- An escape that no letter starts is read as digits of base eight. -/
theorem escapeSequence_octal {first : Char} (rest : List Char)
    (hfirst : first ∉ ['b', 'f', 'n', 'r', 't', 'u', 'U', 'x']) :
    escapeSequence (first :: rest) =
      match octalDigit? first with
      | none => some (first, rest)
      | some _ =>
          (byteChar? (digitRun octalDigit? 8 3 (first :: rest)).1).map
            (·, (digitRun octalDigit? 8 3 (first :: rest)).2.2) := by
  simp only [List.mem_cons, List.not_mem_nil, or_false, not_or] at hfirst
  obtain ⟨h1, h2, h3, h4, h5, h6, h7, h8⟩ := hfirst
  rw [escapeSequence.eq_def]
  split
  case h_10 heq =>
    cases heq
    cases octalDigit? first <;> rfl
  all_goals simp_all

/-- Digits of base sixteen in an escape end in front of a semicolon. -/
theorem escapeSequence_hex_prolonged {c : Char} (h : escapeSequence ('x' :: s) = some (c, left)) :
    escapeSequence ('x' :: (s ++ ';' :: u)) = some (c, left ++ ';' :: u) := by
  rcases hrun : digitRun hexDigit? 16 2 s with ⟨n, count, left'⟩
  have hlong := digitRun_prolonged (u := u) (by decide) hrun
  rw [escapeSequence, hrun] at h
  rw [escapeSequence, hlong]
  cases count with
  | zero =>
      cases h
      rfl
  | succ count => exact map_byteChar?_prolonged h

/-- Digits of base eight in an escape end in front of a semicolon. -/
theorem escapeSequence_octal_prolonged {first c : Char}
    (hfirst : first ∉ ['b', 'f', 'n', 'r', 't', 'u', 'U', 'x'])
    (h : escapeSequence (first :: s) = some (c, left)) :
    escapeSequence (first :: (s ++ ';' :: u)) = some (c, left ++ ';' :: u) := by
  rw [escapeSequence_octal _ hfirst] at h
  rw [escapeSequence_octal _ hfirst]
  split at h
  · cases h
    rfl
  · rcases hrun : digitRun octalDigit? 8 3 (first :: s) with ⟨n, count, left'⟩
    have hlong := digitRun_prolonged (u := u) (by decide) hrun
    rw [List.cons_append] at hlong
    rw [hrun] at h
    rw [hlong]
    exact map_byteChar?_prolonged h

/-- An escape that is read is read the same when the text goes on, whatever letter it starts
with. -/
theorem escapeSequence_prolonged {c : Char} (h : escapeSequence s = some (c, left)) :
    escapeSequence (s ++ ';' :: u) = some (c, left ++ ';' :: u) := by
  cases s with
  | nil => simp [escapeSequence] at h
  | cons first rest =>
      by_cases hfirst : first ∈ ['b', 'f', 'n', 'r', 't', 'u', 'U', 'x']
      · simp only [List.mem_cons, List.not_mem_nil, or_false] at hfirst
        rcases hfirst with rfl | rfl | rfl | rfl | rfl | rfl | rfl | rfl
        -- The first five letters stand for a character by themselves.
        iterate 5
          · cases h
            rfl
        · exact fixedEscape_prolonged h
        · exact fixedEscape_prolonged h
        · exact escapeSequence_hex_prolonged h
      · exact escapeSequence_octal_prolonged hfirst h

/-- A reading of an escaped string may be given more steps than it needs. -/
theorem escapedContent_prolonged {fuel more : Nat} (hmore : fuel ≤ more)
    (h : escapedContent fuel s = some (content, left)) :
    escapedContent more (s ++ ';' :: u) = some (content, left ++ ';' :: u) := by
  -- The number of steps that are left over grows along, as the longer text has more of them.
  fun_induction escapedContent fuel s generalizing content left more with
  | case1 => simp at h
  | case2 => simp at h
  | case3 fuel after ih =>
      obtain ⟨more, rfl⟩ := Nat.exists_eq_add_of_lt hmore
      obtain ⟨tail, htail, rfl⟩ := map_cons_eq_some h
      have hrest := ih (by omega : fuel ≤ fuel + more) htail
      simp [escapedContent, hrest]
  | case4 fuel rest hrest =>
      obtain ⟨more, rfl⟩ := Nat.exists_eq_add_of_lt hmore
      cases h
      rw [List.cons_append, escapedContent.eq_def]
      simp only [if_pos]
      split
      · next heq =>
          obtain ⟨rest, rfl, -⟩ := eq_cons_of_semicolon (by decide) heq
          exact absurd rfl (hrest rest)
      · rfl
  | case5 => simp at h
  | case6 => simp at h
  | case7 fuel rest e after hseq he hc ih =>
      obtain ⟨more, rfl⟩ := Nat.exists_eq_add_of_lt hmore
      obtain ⟨tail, htail, rfl⟩ := map_cons_eq_some h
      have hrest := ih (by omega : fuel ≤ fuel + more) htail
      rw [List.cons_append, escapedContent.eq_def]
      simp [escapeSequence_prolonged hseq, he, hrest]
  | case8 fuel c rest hc hesc ih =>
      obtain ⟨more, rfl⟩ := Nat.exists_eq_add_of_lt hmore
      obtain ⟨tail, htail, rfl⟩ := map_cons_eq_some h
      have hrest := ih (by omega : fuel ≤ fuel + more) htail
      rw [List.cons_append, escapedContent.eq_def]
      simp [hc, hesc, hrest]

/-- A code point does not look beyond its digits. -/
theorem codePoint_prolonged {count n : Nat} {c : Char} (h : codePoint count n s = .ok (c, left)) :
    codePoint count n (s ++ ';' :: u) = .ok (c, left ++ ';' :: u) := by
  fun_induction codePoint count n s with
  | case1 n s c' hc =>
      cases h
      simp [codePoint, hc]
  | case2 => simp at h
  | case3 => simp at h
  | case4 n count c' rest v hv ih =>
      rw [List.cons_append, codePoint, hv]
      exact ih h
  | case5 => simp at h

/-- The character that an escape in a string with code points stands for. -/
def unicodeEscape : List Char → Except Fault (Char × List Char)
  | '\\' :: after => .ok ('\\', after)
  | '+' :: after => codePoint 6 0 after
  | rest => codePoint 4 0 rest

/-- A code point escape that is read is read the same when the text goes on. -/
theorem unicodeEscape_prolonged {c : Char} (h : unicodeEscape s = .ok (c, left)) :
    unicodeEscape (s ++ ';' :: u) = .ok (c, left ++ ';' :: u) := by
  unfold unicodeEscape at h
  split at h
  · cases h
    rfl
  · exact codePoint_prolonged h
  · next hslash hplus =>
      have hread := codePoint_prolonged (u := u) h
      rw [unicodeEscape.eq_3 _ ?_ ?_]
      · exact hread
      · intro after heq
        obtain ⟨rest, rfl, -⟩ := eq_cons_of_semicolon (by decide) heq
        exact hslash rest rfl
      · intro after heq
        obtain ⟨rest, rfl, -⟩ := eq_cons_of_semicolon (by decide) heq
        exact hplus rest rfl

/-- A backslash starts an escape, and the content goes on after it. -/
theorem unicodeContent_backslash (fuel : Nat) (s : List Char) :
    unicodeContent (fuel + 1) ('\\' :: s) =
      (unicodeEscape s).bind fun (c, left) =>
        (unicodeContent fuel left).map fun (content, left) => (c :: content, left) := by
  have hne : '\\' ≠ '\x27' := by decide
  rw [unicodeContent.eq_def]
  simp only [if_neg hne, if_true]
  split
  · rfl
  · rfl
  · next hslash hplus =>
      rw [unicodeEscape.eq_3 _ hslash hplus]

/-- A reading of a string with code points may be given more steps than it needs. -/
theorem unicodeContent_prolonged {fuel more : Nat} (hmore : fuel ≤ more)
    (h : unicodeContent fuel s = .ok (content, left)) :
    unicodeContent more (s ++ ';' :: u) = .ok (content, left ++ ';' :: u) := by
  -- A step looks at the next character: an escape, the closing quote, or any other one.
  induction fuel generalizing s content left more with
  | zero => simp [unicodeContent] at h
  | succ fuel ih =>
      obtain ⟨more, rfl⟩ := Nat.exists_eq_add_of_lt hmore
      have hle : fuel ≤ fuel + more := by omega
      cases s with
      | nil => simp [unicodeContent] at h
      | cons c rest =>
          by_cases hslash : c = '\\'
          · subst hslash
            rw [unicodeContent_backslash] at h
            rw [List.cons_append, unicodeContent_backslash]
            obtain ⟨⟨x, after⟩, hescape, hcons⟩ := bind_eq_ok.1 h
            obtain ⟨tail, htail, rfl⟩ := map_cons_eq_ok hcons
            rw [unicodeEscape_prolonged hescape]
            exact congrArg (Except.map _) (ih hle htail)
          · rw [unicodeContent.eq_def] at h
            rw [List.cons_append, unicodeContent.eq_def]
            simp only [if_neg hslash] at h ⊢
            by_cases hquote : c = '\x27'
            · rw [if_pos hquote] at h ⊢
              split at h
              · obtain ⟨tail, htail, rfl⟩ := map_cons_eq_ok h
                exact congrArg (Except.map _) (ih hle htail)
              · next hrest =>
                  -- The quote was the closing one, and no quote comes with the semicolon.
                  cases h
                  split
                  · next heq =>
                      obtain ⟨rest, rfl, -⟩ := eq_cons_of_semicolon (by decide) heq
                      exact absurd rfl (hrest rest)
                  · rfl
            · rw [if_neg hquote] at h ⊢
              obtain ⟨tail, htail, rfl⟩ := map_cons_eq_ok h
              exact congrArg (Except.map _) (ih hle htail)

/-! ## Marked strings -/

/-- A string with a mark in front is read the same when the text goes on. -/
theorem MarkedRead.prolonged {d : Dialect} {c : Char} {rest : List Char} {t : Token}
    (h : MarkedRead d c rest t left) : MarkedRead d c (rest ++ ';' :: u) t (left ++ ';' :: u) := by
  cases h with
  | byte hd hc hq h => exact .byte hd hc hq (h.prolonged hq)
  | raw hd hc hq h => exact .raw hd hc hq (h.prolonged hq)
  | national hc h => exact .national hc (h.prolonged .single)
  | hex hc h => exact .hex hc (h.prolonged .single)
  | @escaped rest content left hc h =>
      refine .escaped hc (escapedContent_prolonged ?_ h)
      simp
  | @unicode rest content left hd hc h =>
      refine .unicode hd hc (unicodeContent_prolonged ?_ h)
      simp

/-- A first character that is no semicolon was there before the text went on. -/
theorem head?_of_semicolon {c : Char} (hc : c ≠ ';') (h : (s ++ ';' :: u).head? = some c) :
    s.head? = some c := by
  obtain ⟨after, heq⟩ := List.head?_eq_some_iff.1 h
  obtain ⟨rest, rfl, -⟩ := eq_cons_of_semicolon hc heq
  rfl

/-- No string with a mark starts where only a semicolon was added. -/
theorem MarkedAhead.of_prolonged {d : Dialect} {c : Char}
    (h : MarkedAhead d c (s ++ ';' :: u)) : MarkedAhead d c s := by
  have hquote : ∀ {quote}, IsQuote quote → (s ++ ';' :: u).head? = some quote →
      s.head? = some quote := by
    rintro quote (rfl | rfl) hs <;> exact head?_of_semicolon (by decide) hs
  rcases h with ⟨hc, hd, quote, hq, ha⟩ | ⟨hc, hd, quote, hq, ha⟩ | ⟨hc, ha⟩ | ⟨hc, hd, t, ht⟩
  · exact .inl ⟨hc, hd, quote, hq, hquote hq ha⟩
  · exact .inr (.inl ⟨hc, hd, quote, hq, hquote hq ha⟩)
  · exact .inr (.inr (.inl ⟨hc, hquote .single ha⟩))
  · obtain ⟨rest, rfl, hrest⟩ := eq_cons_of_semicolon (by decide) ht
    obtain ⟨rest, rfl, -⟩ := eq_cons_of_semicolon (by decide) hrest.symm
    exact .inr (.inr (.inr ⟨hc, hd, rest, rfl⟩))

/-! ## Dollar strings and comments -/

/-- A dollar string is closed at the same tag when the text goes on. -/
theorem dollar_prolonged {t : Token} (h : dollar s = .ok (t, left)) :
    dollar (s ++ ';' :: u) = .ok (t, left ++ ';' :: u) := by
  -- A string between two dollar signs, one with a tag between them, or a placeholder.
  by_cases hdouble : s.head? = some '$'
  · obtain ⟨after, rfl⟩ := List.head?_eq_some_iff.1 hdouble
    simp only [List.cons_append, dollar] at h ⊢
    split at h
    · next content left' hcontent =>
        cases h
        obtain ⟨v, -, rfl, hread⟩ := dollarContent_local hcontent
        rw [List.append_assoc, hread]
    · cases h
  · have hdouble' : (s ++ ';' :: u).head? ≠ some '$' := fun hs =>
      hdouble (head?_of_semicolon (by decide) hs)
    rw [dollar_eq hdouble] at h
    rw [dollar_eq hdouble', takeWhile_semicolon isTagChar_semicolon,
      dropWhile_semicolon isTagChar_semicolon]
    split at h
    · next after hdrop =>
        rw [hdrop]
        split at h
        · next content left' hcontent =>
            cases h
            obtain ⟨-, rfl, hread⟩ := taggedContent_local hcontent
            simp only [List.cons_append, List.append_assoc, hread]
        · cases h
    · next hdrop =>
        cases h
        split
        · next heq =>
            obtain ⟨rest, hrest, -⟩ := eq_cons_of_semicolon (by decide) heq
            exact absurd hrest (hdrop rest)
        · rfl

/-- A line comment takes the semicolon with it where no line break ends it. -/
theorem lineComment_prolonged {opening : String} {t : Token}
    (h : lineComment opening s = (t, left)) :
    lineComment opening (s ++ ';' :: u) = (t, left ++ ';' :: u) ∨
      left = [] ∧ ∃ content, t = .gap (.lineComment opening content) := by
  have hline : ∀ c ∈ s.takeWhile (fun c => decide (c ≠ '\n')), decide (c ≠ '\n') = true :=
    fun c => mem_takeWhile
  have hs := List.takeWhile_append_dropWhile (p := fun c => decide (c ≠ '\n')) (l := s)
  have hout := outside_dropWhile (fun c => decide (c ≠ '\n')) s
  unfold lineComment at h
  generalize s.takeWhile (fun c => decide (c ≠ '\n')) = line at *
  generalize s.dropWhile (fun c => decide (c ≠ '\n')) = next at *
  subst hs
  cases next with
  | nil =>
      cases h
      exact .inr ⟨rfl, _, rfl⟩
  | cons c next =>
      cases h
      left
      have hend : Outside (fun c => decide (c ≠ '\n')) (c :: left ++ ';' :: u) :=
        outside_cons.2 (outside_cons.1 hout)
      rw [List.append_assoc, lineComment, takeWhile_append_of_outside hline hend,
        dropWhile_append_of_outside hline hend]
      rfl

/-- A comment is closed at the same mark when the text goes on. -/
theorem blockComment_prolonged {t : Token} (h : blockComment s = .ok (t, left)) :
    blockComment (s ++ ';' :: u) = .ok (t, left ++ ';' :: u) := by
  unfold blockComment at h ⊢
  split at h
  · next content left' hcontent =>
      cases h
      obtain ⟨rfl, -, hread⟩ := blockContent_local hcontent
      rw [List.append_assoc, hread]
  · cases h

/-! ## Numbers -/

theorem not_isDigit_semicolon : ¬ ';'.isDigit = true := by decide

/-- No exponent starts where only a semicolon was added. -/
theorem ExponentAhead.of_prolonged (h : ExponentAhead (s ++ ';' :: u)) : ExponentAhead s := by
  obtain ⟨lead, c, t, ⟨e, he, hlead⟩, hc, heq⟩ := h
  have hletter : e ≠ ';' := by rcases he with rfl | rfl <;> decide
  have hdigit : c ≠ ';' := by
    rintro rfl
    exact not_isDigit_semicolon hc
  rcases hlead with rfl | ⟨sign, hsign, rfl⟩
  · obtain ⟨rest, rfl, hrest⟩ := eq_cons_of_semicolon hletter heq
    obtain ⟨rest, rfl, -⟩ := eq_cons_of_semicolon hdigit hrest.symm
    exact ⟨[e], c, rest, ⟨e, he, .inl rfl⟩, hc, rfl⟩
  · have hsemicolon : sign ≠ ';' := by rcases hsign with rfl | rfl <;> decide
    obtain ⟨rest, rfl, hrest⟩ := eq_cons_of_semicolon hletter heq
    obtain ⟨rest, rfl, htail⟩ := eq_cons_of_semicolon hsemicolon hrest.symm
    obtain ⟨rest, rfl, -⟩ := eq_cons_of_semicolon hdigit htail.symm
    exact ⟨[e, sign], c, rest, ⟨e, he, .inr ⟨sign, hsign, rfl⟩⟩, hc, rfl⟩

/-- The exponent of a number ends in front of a semicolon. -/
theorem exponent_prolonged (s u : List Char) :
    exponent (s ++ ';' :: u) = ((exponent s).1, (exponent s).2 ++ ';' :: u) := by
  by_cases ha : ExponentAhead s
  · obtain ⟨lead, c, t, hlead, hc, rfl⟩ := ha
    have hsemicolon : Char.isDigit ';' = false := by decide
    have hdigits := takeWhile_semicolon hsemicolon (c :: t) u
    rw [List.append_assoc, List.cons_append, exponent_of_lead hlead hc, exponent_of_lead hlead hc,
      dropWhile_semicolon hsemicolon, ← List.cons_append, hdigits]
  · rw [exponent_of_not_ahead ha, exponent_of_not_ahead fun h => ha h.of_prolonged]

/-- The digits after a point end in front of a semicolon. -/
theorem decimal_prolonged (s u : List Char) :
    decimal (s ++ ';' :: u) = ((decimal s).1, (decimal s).2 ++ ';' :: u) := by
  have hsemicolon : Char.isDigit ';' = false := by decide
  unfold decimal
  rw [takeWhile_semicolon hsemicolon, dropWhile_semicolon hsemicolon]
  split
  · next after heq =>
      obtain ⟨rest, hrest, rfl⟩ := eq_cons_of_semicolon (by decide) heq
      simp only [hrest, takeWhile_semicolon hsemicolon, dropWhile_semicolon hsemicolon]
  · next hpoint =>
      split
      · next after hrest => exact absurd (by rw [hrest]; rfl) (hpoint (after ++ ';' :: u))
      · rfl

/-- The mark of a number is not a semicolon. -/
theorem numberMarked_prolonged (digits s u : List Char) :
    numberMarked digits (s ++ ';' :: u) =
      ((numberMarked digits s).1, (numberMarked digits s).2 ++ ';' :: u) := by
  by_cases hlong : s.head? = some 'L'
  · obtain ⟨rest, rfl⟩ := List.head?_eq_some_iff.1 hlong
    rfl
  · have hmark : ∀ {s : List Char}, s.head? ≠ some 'L' →
        numberMarked digits s = (.number (String.ofList digits) false, s) := by
      intro s hs
      unfold numberMarked
      split
      · exact absurd rfl hs
      · rfl
    rw [hmark hlong, hmark fun hs => hlong (head?_of_semicolon (by decide) hs)]

/-- Whether an exponent starts is told without the semicolon. -/
theorem StartsExponent.prolonged_iff : StartsExponent (s ++ ';' :: u) ↔ StartsExponent s := by
  cases s <;> simp [StartsExponent]

/-- Whether the text leaves a class of characters without the semicolon is told without it. -/
theorem outside_semicolon_iff (hp : p ';' = false) : Outside p (s ++ ';' :: u) ↔ Outside p s := by
  cases s <;> simp [hp]

/-- A number that goes on after its first digits ends in front of a semicolon. -/
theorem numberFrom_prolonged {d : Dialect} (digits s u : List Char) :
    numberFrom d digits (s ++ ';' :: u) =
      ((numberFrom d digits s).1, (numberFrom d digits s).2 ++ ';' :: u) := by
  have hsemicolon := isNamePart_semicolon d
  by_cases hnamed : Unnamed d s
  · have hnamed' : Unnamed d (s ++ ';' :: u) := fun hd he =>
      (outside_semicolon_iff hsemicolon).2 (hnamed hd (mt StartsExponent.prolonged_iff.2 he))
    rcases hexp : exponent s with ⟨power, next⟩
    have hexp' : exponent (s ++ ';' :: u) = (power, next ++ ';' :: u) := by
      rw [exponent_prolonged, hexp]
    rw [numberFrom_of_unnamed hnamed hexp, numberFrom_of_unnamed hnamed' hexp',
      numberMarked_prolonged]
  · simp only [Unnamed, Classical.not_imp] at hnamed
    obtain ⟨hd, he, hname⟩ := hnamed
    rw [numberFrom_of_named hd he hname,
      numberFrom_of_named hd (mt StartsExponent.prolonged_iff.1 he)
        (mt (outside_semicolon_iff hsemicolon).1 hname),
      takeWhile_semicolon hsemicolon, dropWhile_semicolon hsemicolon]

/-- A number ends in front of a semicolon. -/
theorem number_prolonged {d : Dialect} (s u : List Char) :
    number d (s ++ ';' :: u) = ((number d s).1, (number d s).2 ++ ';' :: u) := by
  by_cases hx : HexAhead s
  · obtain ⟨digits, rfl⟩ := hx
    have hsemicolon : isHexDigit ';' = false := by decide
    rw [List.cons_append, List.cons_append, number_of_hexAhead, number_of_hexAhead,
      takeWhile_semicolon hsemicolon, dropWhile_semicolon hsemicolon]
  · have hx' : ¬ HexAhead (s ++ ';' :: u) := by
      rintro ⟨digits, heq⟩
      obtain ⟨rest, rfl, hrest⟩ := eq_cons_of_semicolon (by decide) heq
      obtain ⟨rest, rfl, -⟩ := eq_cons_of_semicolon (by decide) hrest.symm
      exact hx ⟨rest, rfl⟩
    rw [number_of_not_hexAhead hx, number_of_not_hexAhead hx', decimal_prolonged]
    split
    · rfl
    · rw [numberFrom_prolonged]

/-! ## Operators -/

/-- No operator goes on with a semicolon. -/
theorem goesOn_semicolon (d : Dialect) (s : Symbol) : goesOn d s ';' = false := by
  cases hlonger : operatorWith? d s ';' with
  | none => simp [goesOn, hlonger]
  | some longer => exact absurd (operatorWith?_mem hlonger) (by decide)

/-- The longest operator ends in front of a semicolon. -/
theorem longestOperator_prolonged {d : Dialect} (o : Symbol) (s u : List Char) :
    longestOperator d o (s ++ ';' :: u) =
      ((longestOperator d o s).1, (longestOperator d o s).2 ++ ';' :: u) := by
  have hread : longestOperator d o s = ((longestOperator d o s).1, (longestOperator d o s).2) := rfl
  obtain ⟨v, -, hs, hout, hlocal⟩ := longestOperator_local hread
  have hlong := hlocal _ ((outside_semicolon_iff (u := u) (goesOn_semicolon d _)).2 hout)
  rw [← hlong, ← List.append_assoc, ← hs]

/-- An operator of any characters ends in front of a semicolon. -/
theorem extensible_prolonged {d : Dialect} (o : Symbol) (s u : List Char) :
    extensible d o (s ++ ';' :: u) = ((extensible d o s).1, (extensible d o s).2 ++ ';' :: u) := by
  have hsemicolon := isOperatorPart_semicolon d
  by_cases hout : Outside d.isOperatorPart s
  · rw [extensible_eq_symbol hout, extensible_eq_symbol ((outside_semicolon_iff hsemicolon).2 hout)]
  · rw [extensible_eq_operator hout,
      extensible_eq_operator (mt (outside_semicolon_iff hsemicolon).1 hout),
      takeWhile_semicolon hsemicolon, dropWhile_semicolon hsemicolon]

theorem plainOperator_prolonged {d : Dialect} (c : Char) (o : Symbol) (s u : List Char) :
    plainOperator d c o (s ++ ';' :: u) =
      ((plainOperator d c o s).1, (plainOperator d c o s).2 ++ ';' :: u) := by
  unfold plainOperator
  rw [longestOperator_prolonged]
  by_cases hopen : opensExtensible c = true
  · simp only [if_pos hopen, extensible_prolonged]
  · simp only [if_neg hopen]

/-- A word ends in front of a semicolon. -/
theorem bareWord_prolonged {d : Dialect} (first s u : List Char) :
    bareWord d first (s ++ ';' :: u) =
      ((bareWord d first s).1, (bareWord d first s).2 ++ ';' :: u) := by
  have hsemicolon := isNamePart_semicolon d
  simp only [bareWord, takeWhile_semicolon hsemicolon, dropWhile_semicolon hsemicolon]

/-- A word with a sign in front ends in front of a semicolon. -/
theorem signedWord_prolonged {d : Dialect} {c : Char} {t : Token}
    (h : signedWord d c s = some (t, left)) :
    signedWord d c (s ++ ';' :: u) = some (t, left ++ ';' :: u) := by
  obtain ⟨hstart, opening, after, hopens, rfl, hword⟩ := signedWord_eq_some.1 h
  rw [List.append_assoc, hopens.signedWord_append hstart, bareWord_prolonged, hword]

/-- What opens a name in front of a semicolon stands in the text before, unless that ends. -/
theorem Opens.of_semicolon {c : Char} {opening after : List Char} (h : Opens c opening)
    (hhash : c = '#' → s ≠ []) (hat : c = '@' → s ≠ [] ∧ s ≠ ['@'])
    (heq : s ++ ';' :: u = opening ++ after) : ∃ s', s = opening ++ s' := by
  cases h with
  | hash h =>
      cases s with
      | nil => exact absurd rfl (hhash rfl)
      | cons x s => exact ⟨s, by simpa using (List.cons.inj heq).1⟩
  | single h =>
      cases s with
      | nil => exact absurd rfl (hat rfl).1
      | cons x s => exact ⟨s, by simpa using (List.cons.inj heq).1⟩
  | double h =>
      rcases s with _ | ⟨x, _ | ⟨y, s⟩⟩
      · exact absurd rfl (hat rfl).1
      · obtain ⟨rfl, -⟩ := List.cons.inj heq
        exact absurd rfl (hat rfl).2
      · obtain ⟨rfl, htail⟩ := List.cons.inj heq
        exact ⟨s, by simpa using (List.cons.inj htail).1⟩

/-- A sign opens a name in front of a semicolon only where it ended the text before. -/
theorem signedWord_none_prolonged {d : Dialect} {c : Char} (h : signedWord d c s = none)
    (hhash : c = '#' → s ≠ []) (hat : c = '@' → s ≠ [] ∧ s ≠ ['@']) :
    signedWord d c (s ++ ';' :: u) = none := by
  cases hword : signedWord d c (s ++ ';' :: u) with
  | none => rfl
  | some result =>
      obtain ⟨hstart, opening, after, hopens, heq, -⟩ := signedWord_eq_some.1 hword
      obtain ⟨s', rfl⟩ := hopens.of_semicolon hhash hat heq
      rw [hopens.signedWord_append hstart] at h
      cases h

/-! ## All tokens -/

/-- A token that gives no name to a placeholder. -/
def Nameless : Token → Prop
  | .word _ | .number _ _ | .placeholder _ => False
  | _ => True

/-- An operator is read the same when the text goes on, unless it has reached the end of the text
and is no name. -/
theorem operator_prolonged {d : Dialect} {c : Char} {t : Token}
    (h : operator d c s = some (t, left)) :
    operator d c (s ++ ';' :: u) = some (t, left ++ ';' :: u) ∨ left = [] ∧ Nameless t := by
  rw [operator_eq] at h ⊢
  cases hword : signedWord d c s with
  | some word =>
      rw [hword] at h
      cases h
      rw [signedWord_prolonged hword]
      exact .inl rfl
  | none =>
      rw [hword] at h
      obtain ⟨o, ho, hplain⟩ := Option.map_eq_some_iff.1 h
      by_cases hend : (c = '#' → s ≠ []) ∧ (c = '@' → s ≠ [] ∧ s ≠ ['@'])
      · rw [signedWord_none_prolonged hword hend.1 hend.2, ho]
        left
        simp only [Option.map_some, plainOperator_prolonged, hplain]
      · -- The sign is the last token of the text.
        right
        have hcases : c = '#' ∧ s = [] ∨ c = '@' ∧ (s = [] ∨ s = ['@']) := by tauto
        rcases hcases with ⟨rfl, rfl⟩ | ⟨rfl, rfl | rfl⟩ <;>
          · cases ho
            cases hplain
            exact ⟨rfl, trivial⟩

/-- A question mark with what belongs to it is read the same when the text goes on, unless it has
reached the end. -/
theorem question_prolonged {d : Dialect} {t : Token} (h : question d s = (t, left)) :
    question d (s ++ ';' :: u) = (t, left ++ ';' :: u) ∨ left = [] ∧ Nameless t := by
  unfold question at h
  split at h
  · cases h
    exact .inl rfl
  · cases h
    exact .inl rfl
  · next hpipe hand =>
      cases s with
      | nil =>
          cases h
          exact .inr ⟨rfl, trivial⟩
      | cons c s =>
          cases h
          left
          unfold question
          split
          · next heq => simp_all
          · next heq => simp_all
          · rfl
          · simp_all
  · next hother =>
      cases h
      left
      unfold question
      split
      · simp_all
      · simp_all
      · simp_all
      · rw [takeWhile_semicolon isNumeral_semicolon, dropWhile_semicolon isNumeral_semicolon]

/-- A name in quotes is closed at the same quote when the text goes on. -/
theorem quotedName_prolonged {d : Dialect} {c : Char} {t : Token} (hc : d.isNameQuote c = true)
    (h : quotedName c s = .ok (t, left)) :
    quotedName c (s ++ ';' :: u) = .ok (t, left ++ ';' :: u) := by
  have hclosing : Word.closing c ≠ ';' := by
    have hall : ∀ c ∈ nameQuotes, Word.closing c ≠ ';' := List.all_iff_forall_prop.1 (by decide)
    exact hall c (isNameQuote_mem hc)
  unfold quotedName at h ⊢
  rw [delimited_eq_stringContent] at h ⊢
  split at h
  · next content left' hcontent =>
      cases h
      rw [stringContent_prolonged hclosing hcontent]
  · cases h

/-- What starts no comment starts none when the text goes on. -/
theorem comment_none_prolonged {d : Dialect} {c : Char} (h : comment d c s = none) :
    comment d c (s ++ ';' :: u) = none := by
  unfold comment
  split
  · next heq =>
      obtain ⟨rest, rfl, -⟩ := eq_cons_of_semicolon (by decide) heq
      simp [comment] at h
  · next heq =>
      obtain ⟨rest, rfl, -⟩ := eq_cons_of_semicolon (by decide) heq
      simp [comment] at h
  · simpa [comment] using h
  · rfl

/-- A comment is read the same when the text goes on, unless it has reached the end of the text. -/
theorem comment_prolonged {d : Dialect} {c : Char} {t : Token}
    (h : comment d c s = some (.ok (t, left))) :
    comment d c (s ++ ';' :: u) = some (.ok (t, left ++ ';' :: u)) ∨ left = [] ∧ Nameless t := by
  have line : ∀ {opening after}, lineComment opening after = (t, left) →
      lineComment opening (after ++ ';' :: u) = (t, left ++ ';' :: u) ∨ left = [] ∧ Nameless t := by
    intro opening after h
    rcases lineComment_prolonged h with h | ⟨hleft, content, rfl⟩
    · exact .inl h
    · exact .inr ⟨hleft, trivial⟩
  unfold comment at h
  split at h
  · rcases line (Except.ok.inj (Option.some.inj h)) with h | h
    · exact .inl (congrArg (fun read => some (Except.ok read)) h)
    · exact .inr h
  · exact .inl (congrArg some (blockComment_prolonged (Option.some.inj h)))
  · split at h
    · next hd =>
        rcases line (Except.ok.inj (Option.some.inj h)) with h | h
        · left
          simp only [comment, if_pos hd, h]
        · exact .inr h
    · simp at h
  · simp at h

/-- A token is read again in front of a semicolon, or it ends the text and names no placeholder. -/
theorem Origin.prolonged {d : Dialect} {c : Char} {t : Token} (h : Origin d c s t left) :
    Origin d c (s ++ ';' :: u) t (left ++ ';' :: u) ∨ left = [] ∧ Nameless t := by
  cases h with
  | space => exact .inl (.space _)
  | tab => exact .inl (.tab _)
  | lineBreak => exact .inl (.lineBreak _)
  | returnBreak => exact .inl (.returnBreak _)
  | loneReturn h => exact .inl (.loneReturn fun hs => h (head?_of_semicolon (by decide) hs))
  | single h => exact .inl (.single (h.prolonged .single))
  | marked h => exact .inl (.marked h.prolonged)
  | name hq h => exact .inl (.name hq (quotedName_prolonged hq h))
  | double hq h => exact .inl (.double hq (h.prolonged .double))
  | number hc h =>
      refine .inl (.number hc ?_)
      rw [← List.cons_append, number_prolonged, h]
  | comment h =>
      rcases comment_prolonged h with h | h
      · exact .inl (.comment h)
      · exact .inr h
  | operator hq hcomment h =>
      rcases operator_prolonged h with h | h
      · exact .inl (.operator hq (comment_none_prolonged hcomment) h)
      · exact .inr h
  | question h =>
      rcases question_prolonged h with h | h
      · exact .inl (.question h)
      · exact .inr h
  | word hc hsign hmark h =>
      refine .inl (.word hc hsign (fun hm => hmark hm.of_prolonged) ?_)
      rw [bareWord_prolonged, h]
  | dollar hd h => exact .inl (.dollar hd (dollar_prolonged h))
  | blank hc hb => exact .inl (.blank hc hb _)
  | character hc hb => exact .inl (.character hc hb _)

/-- The tokens of a text are the first tokens of the text that goes on after a semicolon, or all of
them but a last one that names no placeholder are. -/
theorem Reads.prolonged {d : Dialect} {ts ts' : List Token} (h : Reads d s ts)
    (h' : Reads d (s ++ ';' :: u) ts') :
    (∃ more, ts' = ts ++ more) ∨
      ∃ front last more, ts = front ++ [last] ∧ Nameless last ∧ ts' = front ++ more := by
  induction h generalizing ts' with
  | nil => exact .inl ⟨ts', rfl⟩
  | @cons c rest t left ts h hs ih =>
      rcases h.prolonged with hsame | ⟨rfl, hlast⟩
      · rw [List.cons_append] at h'
        cases h' with
        | cons hread hs' =>
            have hboth := (token_eq_ok.2 hread).symm.trans (token_eq_ok.2 hsame)
            cases hboth
            rcases ih hs' with ⟨more, rfl⟩ | ⟨front, last, more, rfl, hlast, rfl⟩
            · exact .inl ⟨more, rfl⟩
            · exact .inr ⟨t :: front, last, more, rfl, hlast, rfl⟩
      · -- The token ends the text.
        cases hs
        exact .inr ⟨[], t, ts', rfl, hlast, rfl⟩

end

end TypedSql.Lexer
