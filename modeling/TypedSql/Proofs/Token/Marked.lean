import TypedSql.Proofs.Token.Strings

namespace TypedSql.Lexer

/-! # Strings that a letter marks

`MarkedRead` says how a string is read that starts with a letter and its quote, and `MarkedAhead`
whether one starts at all. What is written out starts with the letter as a capital.
-/

/-! ## Reading -/

/-- How a string is read that starts with a letter and its quote. -/
inductive MarkedRead (d : Dialect) (c : Char) : List Char → Token → List Char → Prop
  | byte {quote rest t left} (hd : d.hasByteStrings = true) (hc : c.toLower = 'b')
      (hq : IsQuote quote) (h : StringRead d.hasTripleQuotes .byte false quote rest t left) :
      MarkedRead d c (quote :: rest) t left
  | raw {quote rest t left} (hd : d.hasRawStrings = true) (hc : c.toLower = 'r')
      (hq : IsQuote quote) (h : StringRead true .raw false quote rest t left) :
      MarkedRead d c (quote :: rest) t left
  | national {rest t left} (hc : c.toLower = 'n')
      (h : StringRead false .national true '\x27' rest t left) :
      MarkedRead d c ('\x27' :: rest) t left
  | hex {rest t left} (hc : c.toLower = 'x') (h : StringRead false .hex true '\x27' rest t left) :
      MarkedRead d c ('\x27' :: rest) t left
  | escaped {rest content left} (hc : c.toLower = 'e')
      (h : escapedContent (rest.length + 1) rest = some (content, left)) :
      MarkedRead d c ('\x27' :: rest) (.string .escaped .single (String.ofList content)) left
  | unicode {rest content left} (hd : d.hasUnicodeStrings = true) (hc : c.toLower = 'u')
      (h : unicodeContent (rest.length + 1) rest = .ok (content, left)) :
      MarkedRead d c ('&' :: '\x27' :: rest) (.string .unicode .single (String.ofList content)) left

section

variable {d : Dialect} {c : Char} {rest left after : List Char} {t : Token}

theorem isQuote_iff {quote : Char} :
    (decide (quote = '\x27') || decide (quote = '\x22')) = true ↔ IsQuote quote := by
  simp [IsQuote]

/-- What is read as a marked string was marked by one of the letters. -/
theorem markedRead_of_eq (h : markedString d c rest = some (.ok (t, left))) :
    MarkedRead d c rest t left := by
  unfold markedString at h
  split at h
  case h_1 hc =>
    split at h
    · next hopen =>
        rw [Bool.and_eq_true, isQuote_iff] at hopen
        exact .byte hopen.1 hc hopen.2 (stringIn_eq_ok.1 (Option.some.inj h))
    · simp at h
  case h_2 hc =>
    split at h
    · next hopen =>
        rw [Bool.and_eq_true, isQuote_iff] at hopen
        exact .raw hopen.1 hc hopen.2 (tripleableString_eq_ok.1 (Option.some.inj h))
    · simp at h
  case h_3 hc => exact .national hc (plainString_eq_ok.1 (Option.some.inj h))
  case h_4 hc => exact .hex hc (plainString_eq_ok.1 (Option.some.inj h))
  case h_5 hc =>
    split at h
    · next hread =>
        cases h
        exact .escaped hc hread
    · simp at h
  case h_6 after hc =>
    split at h
    · next hd =>
        obtain ⟨⟨content, left'⟩, hread, hmap⟩ := Outcome.map_eq_ok.1 (Option.some.inj h)
        cases hmap
        exact .unicode hd hc hread
    · simp at h
  case h_7 => simp at h

/-- A string with one of the marks is read as a marked string. -/
theorem MarkedRead.markedString_eq (h : MarkedRead d c rest t left) :
    markedString d c rest = some (.ok (t, left)) := by
  cases h with
  | byte hd hc hq h =>
      simp only [markedString, hc]
      rw [if_pos (by rw [Bool.and_eq_true, isQuote_iff]; exact ⟨hd, hq⟩), stringIn_eq_ok.2 h]
  | raw hd hc hq h =>
      simp only [markedString, hc]
      rw [if_pos (by rw [Bool.and_eq_true, isQuote_iff]; exact ⟨hd, hq⟩),
        tripleableString_eq_ok.2 h]
  | national hc h => simp only [markedString, hc, plainString_eq_ok.2 h]
  | hex hc h => simp only [markedString, hc, plainString_eq_ok.2 h]
  | escaped hc h => simp only [markedString, hc, h]
  | unicode hd hc h =>
      simp only [markedString, hc, hd, h]
      rfl

theorem markedString_eq_some_ok :
    markedString d c rest = some (.ok (t, left)) ↔ MarkedRead d c rest t left :=
  ⟨markedRead_of_eq, MarkedRead.markedString_eq⟩

/-- A letter in lower case is the letter itself or stands 32 code points behind it. -/
theorem eq_or_toNat_of_toLower {x : Char} (h : c.toLower = x) :
    c = x ∨ c.toNat + 32 = x.toNat := by
  unfold Char.toLower at h
  split at h
  · next hc =>
      right
      have hle : c.val.toNat ≤ 90 := hc.2
      have hval : c.val + 32 = x.val := congrArg Char.val h
      have hnat := congrArg UInt32.toNat hval
      rw [UInt32.toNat_add] at hnat
      simp only [Char.toNat]
      have h32 : (32 : UInt32).toNat = 32 := rfl
      omega
  · exact .inl h

/-- A character with the small letter of a capital is the capital or the small letter. -/
theorem letter_of_toLower {l : Char} (hl : l ∈ stringLetters) (h : c.toLower = l.toLower) :
    c = l ∨ c = l.toLower := by
  have hshift : ∀ x ∈ stringLetters, x.toNat + 32 = x.toLower.toNat :=
    List.all_iff_forall_prop.1 (by decide)
  rcases eq_or_toNat_of_toLower h with hc | hc
  · exact .inr hc
  · -- The capital letters stand at one distance from their small ones.
    left
    have hnat := hshift l hl
    exact Char.toNat_inj.1 (by omega)

namespace StringRead

variable {triple escapes : Bool} {mark : StringMark} {quote : Char}

/-- A string is written with its mark and its quote first. -/
theorem chars_eq (hq : IsQuote quote) (h : StringRead triple mark escapes quote rest t left) :
    ∃ u, t.chars = mark.text.toList ++ quote :: u := by
  cases h with
  | plain _ _ => exact ⟨_, by simp [hq.plainQuote_text]; rfl⟩
  | tripled _ _ => exact ⟨_, by simp [hq.tripleQuote_text]; rfl⟩

/-- A marked string is written with its mark as a capital, in no more room than it was read from. -/
theorem marked_spelling {l : Char} (hq : IsQuote quote) (hmark : mark.text.toList = [l])
    (hl : l ∈ stringLetters) (hc : c = l ∨ c = l.toLower)
    (h : StringRead triple mark escapes quote rest t left) :
    (∀ after, Respelled (c :: quote :: rest) (t.chars ++ after)) ∧
      ∃ u, quote :: rest = u ++ left ∧ weight t.chars ≤ weight (c :: u) := by
  constructor
  · intro after
    rcases h.chars_eq hq with ⟨u, hu⟩
    rw [hu, hmark]
    refine .mark hl hc ?_ _ _
    rcases hq with rfl | rfl <;> decide
  · rcases h.weight_le hq with ⟨u, rfl, hu⟩
    refine ⟨quote :: u, rfl, ?_⟩
    have hcapital : ∀ x ∈ stringLetters, charWeight x = 1 :=
      List.all_iff_forall_prop.1 (by decide)
    have hletter := one_le_charWeight c
    simp only [hmark, weight_cons, weight_nil, hcapital l hl] at hu ⊢
    omega

/-- Only an intact string is read back after its letter. -/
theorem intact_marked {u : List Char} {l : Char} (hq : IsQuote quote)
    (hmark : mark.text.toList = [l]) (he : mark.escapes d = escapes) (hu : t.chars = c :: u)
    (hrest : u ++ left = quote :: rest)
    (h : StringRead triple mark escapes quote rest t left) : t.Intact d := by
  rcases h.chars_eq hq with ⟨v, hv⟩
  have huv : u = quote :: v := by
    rw [hv, hmark] at hu
    exact (List.cons.inj hu).2.symm
  subst huv
  have hrest' : v ++ left = rest := (List.cons.inj hrest).2
  subst hrest'
  exact h.intact hq he hv

/-- A string that is not one of base sixteen is apart from anything after it. -/
theorem apart (hm : mark ≠ .hex) (h : StringRead triple mark escapes quote rest t left)
    (after : List Char) : t.Apart d after := by
  cases h <;> cases mark <;> first | exact absurd rfl hm | trivial

end StringRead

namespace MarkedRead

/-- A string with escapes is intact when nothing in it would have to be written in another way. -/
theorem intact_escaped_iff {content : List Char} :
    (Token.string .escaped .single (String.ofList content)).Intact d ↔
      ∀ x ∈ content, special '\x27' true x = false := by
  show (Token.string .escaped (plainQuote '\x27') (String.ofList content)).Intact d ↔ _
  exact intact_plain_iff .escaped .single

/-- A string with code points is intact when nothing in it would have to be written in another
way. -/
theorem intact_unicode_iff {content : List Char} :
    (Token.string .unicode .single (String.ofList content)).Intact d ↔
      ∀ x ∈ content, special '\x27' true x = false := by
  show (Token.string .unicode (plainQuote '\x27') (String.ofList content)).Intact d ↔ _
  exact intact_plain_iff .unicode .single

/-- Between its letter and its closing quote a content has no more room than what was read. -/
theorem weight_marked_le {l : Char} {content : List Char} (opening : List Char)
    (hl : charWeight l = 1) (h : Taken (special '\x27' true) 1 rest content left) :
    ∃ u, opening ++ rest = u ++ left ∧
      weight (l :: (opening ++ (content ++ ['\x27']))) ≤ weight (c :: u) := by
  rcases h with ⟨u, rfl, hu⟩
  refine ⟨opening ++ u, by simp, ?_⟩
  have hletter := one_le_charWeight c
  have hquote : charWeight '\x27' = 1 := rfl
  simp only [weight_cons, weight_append, weight_nil, hl, hquote] at hu ⊢
  omega

/-- A marked string that is written out starts with its letter as a capital, and has no more room
than what it was read from. -/
theorem spelling (h : MarkedRead d c rest t left) :
    (∀ after, Respelled (c :: rest) (t.chars ++ after)) ∧
      ∃ u, rest = u ++ left ∧ weight t.chars ≤ weight (c :: u) := by
  cases h with
  | byte _ hc hq h =>
      exact h.marked_spelling hq rfl (by decide) (letter_of_toLower (l := 'B') (by decide) hc)
  | raw _ hc hq h =>
      exact h.marked_spelling hq rfl (by decide) (letter_of_toLower (l := 'R') (by decide) hc)
  | national hc h =>
      exact h.marked_spelling .single rfl (by decide)
        (letter_of_toLower (l := 'N') (by decide) hc)
  | hex hc h =>
      exact h.marked_spelling .single rfl (by decide)
        (letter_of_toLower (l := 'X') (by decide) hc)
  | @escaped _ content _ hc h =>
      have hchars : (Token.string .escaped .single (String.ofList content)).chars =
          'E' :: '\x27' :: (content ++ ['\x27']) := by
        simp [StringMark.text, StringQuote.text]
      rw [hchars]
      refine ⟨fun after => ?_, weight_marked_le ['\x27'] rfl (escapedContent_taken h)⟩
      exact .mark (l := 'E') (q := '\x27') (by decide) (letter_of_toLower (by decide) hc)
        (by decide) _ _
  | @unicode _ content _ _ hc h =>
      have hchars : (Token.string .unicode .single (String.ofList content)).chars =
          'U' :: '&' :: '\x27' :: (content ++ ['\x27']) := by
        simp [StringMark.text, StringQuote.text]
      rw [hchars]
      refine ⟨fun after => ?_, weight_marked_le ['&', '\x27'] rfl (unicodeContent_taken h)⟩
      exact .mark (l := 'U') (q := '&') (by decide) (letter_of_toLower (by decide) hc)
        (by decide) _ _

/-- An intact string is read back after its letter. -/
theorem reread (h : MarkedRead d c rest t left) (hi : t.Intact d) (hr : Agree left after) :
    ∃ l u, t.chars = l :: u ∧ MarkedRead d l (u ++ after) t after := by
  cases h with
  | byte hd _ hq h =>
      rcases h.reread hq rfl hi hr with ⟨u, hu, hread⟩
      exact ⟨'B', _, hu, .byte hd (by decide) hq hread⟩
  | raw hd _ hq h =>
      rcases h.reread hq rfl hi hr with ⟨u, hu, hread⟩
      exact ⟨'R', _, hu, .raw hd (by decide) hq hread⟩
  | national _ h =>
      rcases h.reread .single rfl hi hr with ⟨u, hu, hread⟩
      exact ⟨'N', _, hu, .national (by decide) hread⟩
  | hex _ h =>
      rcases h.reread .single rfl hi hr with ⟨u, hu, hread⟩
      exact ⟨'X', _, hu, .hex (by decide) hread⟩
  | @escaped _ content _ _ h =>
      have hafter := hr.head?_ne IsQuote.single.not_mem_newHeads (escapedContent_left h)
      refine ⟨'E', '\x27' :: (content ++ ['\x27']), by simp [StringMark.text, StringQuote.text], ?_⟩
      refine .escaped (by decide) ?_
      have hfuel : content.length < (content ++ '\x27' :: after).length + 1 := by
        rw [List.length_append, List.length_cons]
        omega
      simpa using escapedContent_of_not_special hfuel (intact_escaped_iff.1 hi) hafter
  | @unicode _ content _ hd _ h =>
      have hafter := hr.head?_ne IsQuote.single.not_mem_newHeads (unicodeContent_left h)
      refine ⟨'U', '&' :: '\x27' :: (content ++ ['\x27']),
        by simp [StringMark.text, StringQuote.text], ?_⟩
      refine .unicode hd (by decide) ?_
      have hfuel : content.length < (content ++ '\x27' :: after).length + 1 := by
        rw [List.length_append, List.length_cons]
        omega
      simpa using unicodeContent_of_not_special hfuel (intact_unicode_iff.1 hi) hafter

/-- Only an intact string is read back, and a hexadecimal one not before another quote. -/
theorem intact {u : List Char} (hu : t.chars = c :: u) (h : MarkedRead d c (u ++ left) t left) :
    t.Intact d ∧ t.Apart d left := by
  generalize hrest : u ++ left = rest at h
  cases h with
  | byte _ _ hq h => exact ⟨h.intact_marked hq rfl rfl hu hrest, h.apart (by decide) _⟩
  | raw _ _ hq h => exact ⟨h.intact_marked hq rfl rfl hu hrest, h.apart (by decide) _⟩
  | national _ h => exact ⟨h.intact_marked .single rfl rfl hu hrest, h.apart (by decide) _⟩
  | hex _ h =>
      refine ⟨h.intact_marked .single rfl rfl hu hrest, ?_⟩
      cases h with
      | plain _ h => exact stringContent_left h
      | tripled htriple _ => simp at htriple
  | @escaped rest content _ _ h =>
      simp [StringMark.text, StringQuote.text] at hu
      rcases hu with ⟨_, rfl⟩
      refine ⟨intact_escaped_iff.2 ?_, trivial⟩
      rw [show rest = content ++ '\x27' :: left by simpa using hrest.symm] at h
      exact (escapedContent_taken h).not_special_of_quote (by decide)
  | @unicode rest content _ _ _ h =>
      simp [StringMark.text, StringQuote.text] at hu
      rcases hu with ⟨_, rfl⟩
      refine ⟨intact_unicode_iff.2 ?_, trivial⟩
      rw [show rest = content ++ '\x27' :: left by simpa using hrest.symm] at h
      exact (unicodeContent_taken h).not_special_of_quote (by decide)

end MarkedRead

/-! ## Where a marked string starts -/

/-- A letter and its quote stand at the front of a text. -/
def MarkedAhead (d : Dialect) (c : Char) (rest : List Char) : Prop :=
  (c.toLower = 'b' ∧ d.hasByteStrings = true ∧ ∃ quote, IsQuote quote ∧ rest.head? = some quote) ∨
    (c.toLower = 'r' ∧ d.hasRawStrings = true ∧
      ∃ quote, IsQuote quote ∧ rest.head? = some quote) ∨
    (c.toLower ∈ ['n', 'x', 'e'] ∧ rest.head? = some '\x27') ∨
    (c.toLower = 'u' ∧ d.hasUnicodeStrings = true ∧ ∃ after, rest = '&' :: '\x27' :: after)

theorem markedString_eq_none : markedString d c rest = none ↔ ¬ MarkedAhead d c rest := by
  unfold markedString
  split
  case h_1 hc => simp [MarkedAhead, hc, IsQuote]
  case h_2 hc => simp [MarkedAhead, hc, IsQuote]
  case h_3 hc => simp [MarkedAhead, hc]
  case h_4 hc => simp [MarkedAhead, hc]
  case h_5 hc => simp [MarkedAhead, hc]
  case h_6 hc => simp [MarkedAhead, hc]
  case h_7 hb hr hn hx he hu =>
    simp only [true_iff]
    rintro (⟨hc, _, quote, _, hrest⟩ | ⟨hc, _, quote, _, hrest⟩ | ⟨hc, hrest⟩ |
      ⟨hc, _, after, hrest⟩)
    · rcases List.head?_eq_some_iff.1 hrest with ⟨after, rfl⟩
      exact hb _ _ hc rfl
    · rcases List.head?_eq_some_iff.1 hrest with ⟨after, rfl⟩
      exact hr _ _ hc rfl
    · rcases List.head?_eq_some_iff.1 hrest with ⟨after, rfl⟩
      simp only [List.mem_cons, List.not_mem_nil, or_false] at hc
      rcases hc with hc | hc | hc
      · exact hn _ hc rfl
      · exact hx _ hc rfl
      · exact he _ hc rfl
    · exact hu _ hc hrest

/-- Where the texts agree, a marked string starts in both or in none. -/
theorem MarkedAhead.of_agree (hr : Agree left after) (h : MarkedAhead d c after) :
    MarkedAhead d c left := by
  have hquote : ∀ {quote}, IsQuote quote → after.head? = some quote → left.head? = some quote :=
    fun hq ha => hr.head?_eq hq.not_mem_newHeads ha
  rcases h with ⟨hc, hd, quote, hq, ha⟩ | ⟨hc, hd, quote, hq, ha⟩ | ⟨hc, ha⟩ | ⟨hc, hd, t, rfl⟩
  · exact .inl ⟨hc, hd, quote, hq, hquote hq ha⟩
  · exact .inr (.inl ⟨hc, hd, quote, hq, hquote hq ha⟩)
  · exact .inr (.inr (.inl ⟨hc, hquote .single ha⟩))
  · -- No other spelling puts an ampersand in front, so it is in both texts.
    rcases hr.eq_cons (by decide) with ⟨s, rfl, hs⟩
    have hhead := hs.head?_eq IsQuote.single.not_mem_newHeads rfl
    rcases List.head?_eq_some_iff.1 hhead with ⟨s, rfl⟩
    exact .inr (.inr (.inr ⟨hc, hd, s, rfl⟩))

/-- The letters that mark strings, as small ones. -/
def markLetters : List Char := ['b', 'r', 'n', 'x', 'e', 'u']

/-- A mark is one of the letters, in either case. -/
theorem MarkedRead.toLower_mem (h : MarkedRead d c rest t left) : c.toLower ∈ markLetters := by
  cases h <;> simp [markLetters, *]

/-- No other letter marks a string. -/
theorem markedString_of_not_letter (h : c.toLower ∉ markLetters) :
    markedString d c rest = none := by
  rw [markedString_eq_none]
  simp only [markLetters, List.mem_cons, List.not_mem_nil, or_false, not_or] at h
  simp [MarkedAhead, h]

end

end TypedSql.Lexer
