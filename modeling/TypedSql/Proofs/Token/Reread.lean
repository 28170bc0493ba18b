import TypedSql.Proofs.Token.Origin

namespace TypedSql.Lexer

open Text

/-! # Reading tokens that are written out again

What a token takes off the text (`Origin.spelled`), when it is read back from what it is written as
(`Origin.reread`), and that it is not read back otherwise (`Origin.intact`).
-/

section

variable {d : Dialect} {c : Char} {rest left after : List Char} {t : Token}

/-! ## What a token takes -/

/-- A token is written as what was taken for it, or else it has no more room and starts with another
spelling of the same. -/
inductive Spelled (c : Char) (rest : List Char) (t : Token) (left : List Char) : Prop
  | same (u : List Char) (hu : t.chars = c :: u) (hrest : rest = u ++ left)
  | respelled (h : ∀ after, Respelled (c :: rest) (t.chars ++ after)) (u : List Char)
      (hrest : rest = u ++ left) (hw : weight t.chars ≤ weight (c :: u))

namespace Spelled

/-- A token is written in no more room than it was read from. -/
theorem taken (h : Spelled c rest t left) :
    ∃ u, rest = u ++ left ∧ weight t.chars ≤ weight (c :: u) := by
  cases h with
  | same u hu hrest => exact ⟨u, hrest, Nat.le_of_eq (by rw [hu])⟩
  | respelled h u hrest hw => exact ⟨u, hrest, hw⟩

/-- A token that is written out again goes on like the text that it was read from. -/
theorem agree (h : Spelled c rest t left) (hr : Agree left after) :
    Agree (c :: rest) (t.chars ++ after) := by
  cases h with
  | same u hu hrest =>
      rw [hu, hrest]
      exact hr.append (c :: u)
  | respelled h u hrest hw => exact .respelled (h after)

/-- A token is written with at least one character. -/
theorem chars_ne_nil (h : Spelled c rest t left) : t.chars ≠ [] := by
  intro hnil
  cases h with
  | same u hu hrest =>
      rw [hnil] at hu
      cases hu
  | respelled h u hrest hw =>
      -- No other spelling starts with the text that comes after the token.
      have hempty := h []
      rw [hnil] at hempty
      cases hempty

end Spelled

/-- A token that is read back is spelled as it was. -/
theorem ReadBack.spelled {read : List Char → Token → List Char → Prop}
    (h : ReadBack read [c] rest t left) : Spelled c rest t left := by
  rcases h with ⟨u, hu, hrest, _⟩
  exact .same u hu hrest

/-- A question mark with what belongs to it is spelled as it was. -/
theorem question_spelled (h : question d rest = (t, left)) : Spelled '?' rest t left := by
  unfold question at h
  split at h
  · cases h
    exact .same ['|'] rfl rfl
  · cases h
    exact .same ['&'] rfl rfl
  · cases h
    refine .respelled (fun after => .opened (by decide) _ after) (rest.take 1)
      (List.take_append_drop 1 rest).symm ?_
    rw [weight_cons]
    exact Nat.le_add_right 1 _
  · cases h
    exact .same (rest.takeWhile isNumeral) (by simp) (by simp)

/-- A comment is read back from its own text. -/
theorem comment_readBack (h : comment d c rest = some (.ok (t, left))) :
    ReadBack (fun s t left => comment d c s = some (.ok (t, left))) [c] rest t left := by
  unfold comment at h
  split at h
  · rcases lineComment_readBack (Except.ok.inj (Option.some.inj h)) with ⟨u, hu, rfl, hread⟩
    refine ⟨'-' :: u, hu, rfl, ?_⟩
    intro after hr
    exact congrArg (fun r => some (Except.ok r)) (hread after hr)
  · rcases blockComment_readBack (Option.some.inj h) with ⟨u, hu, rfl, hread⟩
    refine ⟨'*' :: u, hu, rfl, ?_⟩
    intro after hr
    exact congrArg some (hread after hr)
  · split at h
    · next hd =>
        rcases lineComment_readBack (Except.ok.inj (Option.some.inj h)) with ⟨u, hu, rfl, hread⟩
        refine ⟨u, hu, rfl, ?_⟩
        intro after hr
        simp only [comment, if_pos hd]
        exact congrArg (fun r => some (Except.ok r)) (hread after hr)
    · simp at h
  · simp at h

/-- A string or delimited name is written between the quotes that it was read between. -/
theorem spelled_of_opened {q : Char} (hq : q ∈ openers) (hu : ∃ u, t.chars = q :: u)
    (h : ∃ u, rest = u ++ left ∧ weight t.chars ≤ charWeight q + weight u) :
    Spelled q rest t left := by
  rcases hu with ⟨v, hv⟩
  rcases h with ⟨u, hrest, hw⟩
  refine .respelled (fun after => ?_) u hrest hw
  rw [hv]
  exact .opened hq _ _

/-- A string without a mark is spelled from its quote on. -/
theorem stringRead_spelled {triple escapes : Bool} {q : Char} (hq : IsQuote q)
    (h : StringRead triple .plain escapes q rest t left) : Spelled q rest t left := by
  refine spelled_of_opened ?_ (h.chars_eq hq) ?_
  · rcases hq with rfl | rfl <;> decide
  · simpa [StringMark.text] using h.weight_le hq

/-- The second spelling of an operator is as long as the first. -/
theorem operator_spelled (h : operator d c rest = some (t, left)) : Spelled c rest t left := by
  cases hword : signedWord d c rest with
  | some word =>
      rw [operator_eq, hword] at h
      exact (signedWord_readBack (hword.trans h)).spelled
  | none =>
      rw [operator_eq, hword] at h
      rcases Option.map_eq_some_iff.1 h with ⟨s, hs, hplain⟩
      rcases plainOperator_local hs hplain with ⟨rfl, rfl, rfl⟩ | ⟨u, hu, hrest, _⟩
      · exact .respelled (fun after => .notEqual _ after) ['='] rfl (by decide)
      · exact .same u hu hrest

/-- A number is spelled as it was. -/
theorem number_spelled (hc : c.isDigit = true ∨ c = '.')
    (h : number d (c :: rest) = (t, left)) : Spelled c rest t left := by
  by_cases hx : HexAhead (c :: rest)
  · -- The quotes take the room that the `x` counts for.
    rcases hx with ⟨digits, heq⟩
    cases heq
    rw [number_of_hexAhead] at h
    cases h
    have hchars : (Token.string .hex .single (String.ofList (digits.takeWhile isHexDigit))).chars =
        'X' :: '\x27' :: (digits.takeWhile isHexDigit ++ ['\x27']) := by
      simp [StringMark.text, StringQuote.text]
    refine .respelled (fun after => ?_) ('x' :: digits.takeWhile isHexDigit) (by simp) ?_
    · rw [hchars]
      exact .hex _ _
    · rw [hchars]
      have hzero : charWeight '0' = 1 := rfl
      have hx : charWeight 'x' = 2 := rfl
      have hcapital : charWeight 'X' = 1 := rfl
      have hquote : charWeight '\x27' = 1 := rfl
      simp only [weight_cons, weight_append, weight_nil, hzero, hx, hcapital, hquote]
      omega
  · exact (number_readBack hc hx h).spelled

/-- Every token is spelled from its first character on. -/
theorem Origin.spelled (h : Origin d c rest t left) : Spelled c rest t left := by
  cases h with
  | space | tab | lineBreak => exact .same [] rfl rfl
  | returnBreak =>
      exact .respelled (fun after => .newline _ after) ['\n'] rfl (by decide)
  | loneReturn h =>
      exact .respelled (fun after => .newline _ after) [] rfl (by decide)
  | single h => exact stringRead_spelled .single h
  | marked h =>
      rcases h.spelling with ⟨hspelled, u, hrest, hw⟩
      exact .respelled hspelled u hrest hw
  | name hq h =>
      have hopener : ∀ x ∈ nameQuotes, x ∈ openers :=
        List.all_iff_forall_prop.1 (by decide)
      refine spelled_of_opened (hopener c (isNameQuote_mem hq)) ?_ (quotedName_weight_le hq h)
      rcases quotedName_eq_ok.1 h with ⟨content, _, rfl⟩
      exact ⟨_, Token.chars_delimited _ _⟩
  | double hq h => exact stringRead_spelled .double h
  | number hc h => exact number_spelled hc h
  | comment h => exact (comment_readBack h).spelled
  | operator hq hcomment h => exact operator_spelled h
  | question h => exact question_spelled h
  | word hc hsign hmark h => exact (bareWord_readBack h).spelled
  | dollar hd h => exact (dollar_readBack h).spelled
  | blank hc hb =>
      refine .respelled (fun after => .blank hb _ after) [] rfl ?_
      have hone := one_le_charWeight c
      rw [weight_cons]
      exact Nat.le_trans hone (Nat.le_add_right _ _)
  | character hc hb => exact .same [] (by simp) rfl

/-! ## Reading a token again -/

/-- In a dialect without operators of question marks the digits after one belong to it. -/
theorem question_eq_placeholder (hd : d ≠ .postgres) :
    question d rest =
      (.placeholder (String.ofList ('?' :: rest.takeWhile isNumeral)),
        rest.dropWhile isNumeral) := by
  unfold question
  split <;> first | exact absurd rfl hd | rfl

/-- A question mark is read again where what follows keeps apart from it. -/
theorem question_reread (h : question d rest = (t, left)) (ha : t.Apart d after)
    (hr : Agree left after) : ∃ u, t.chars = '?' :: u ∧ question d (u ++ after) = (t, after) := by
  by_cases hd : d = .postgres
  · subst hd
    unfold question at h
    split at h
    · cases h
      exact ⟨['|'], rfl, rfl⟩
    · cases h
      exact ⟨['&'], rfl, rfl⟩
    · -- The sign has swallowed a character, and stands apart from the end of the text only.
      cases h
      have hnil : after = [] := ha
      subst hnil
      exact ⟨[], rfl, rfl⟩
    · next hd _ _ => exact absurd rfl hd
  · rw [question_eq_placeholder hd] at h
    cases h
    have hin : ∀ c ∈ rest.takeWhile isNumeral, isNumeral c = true := fun c => mem_takeWhile
    have hafter := hr.outside alike_isNumeral (outside_dropWhile _ _)
    refine ⟨rest.takeWhile isNumeral, by simp, ?_⟩
    rw [question_eq_placeholder hd, takeWhile_append_of_outside hin hafter,
      dropWhile_append_of_outside hin hafter]

/-- An operator is read again where what follows keeps apart from it. -/
theorem operator_reread (hq : d.isNameQuote c = false) (hcomment : comment d c rest = none)
    (h : operator d c rest = some (t, left)) (ha : t.Apart d after) (hr : Agree left after) :
    ∃ x u, t.chars = x :: u ∧ Origin d x (u ++ after) t after := by
  cases hword : signedWord d c rest with
  | some word =>
      rw [operator_eq, hword] at h
      rcases signedWord_readBack (hword.trans h) with ⟨u, hu, rfl, hread⟩
      refine ⟨c, u, hu, .operator hq (comment_none_of_agree (hr.append u) hcomment) ?_⟩
      rw [operator_eq, hread after hr]
  | none =>
      rw [operator_eq, hword] at h
      rcases Option.map_eq_some_iff.1 h with ⟨s, hs, hplain⟩
      rcases plainOperator_local hs hplain with ⟨rfl, rfl, rfl⟩ | ⟨u, hu, rfl, _, hread⟩
      · -- The second spelling is written as the first, which may go on.
        refine ⟨'<', ['>'], rfl, .operator (isNameQuote_eq_false (by decide)) rfl ?_⟩
        have hword : signedWord d '<' ('>' :: after) = none := by simp [signedWord]
        have hlong : longestOperator d .less ('>' :: after) = (.notEqual, after) :=
          longestOperator_of_outside (s := .notEqual) fun _ _ => rfl
        rw [List.singleton_append, operator_eq, hword]
        refine congrArg some (?_ : plainOperator d '<' .less ('>' :: after) = _)
        have hopen : opensExtensible '<' = true := rfl
        simp only [plainOperator, hlong, if_pos hopen]
        exact extensible_eq_symbol ha
      · refine ⟨c, u, hu, .operator hq (comment_none_of_agree (hr.append u) hcomment) ?_⟩
        rw [operator_eq, signedWord_none_of_agree (hr.append u) hword, hs, ← hread after hr ha]
        rfl

/-- An intact number is read again where what follows keeps apart from it. -/
theorem number_reread (hc : c.isDigit = true ∨ c = '.') (h : number d (c :: rest) = (t, left))
    (hi : t.Intact d) (ha : t.Apart d after) (hr : Agree left after) :
    ∃ x u, t.chars = x :: u ∧ Origin d x (u ++ after) t after := by
  by_cases hx : HexAhead (c :: rest)
  · rcases hx with ⟨digits, heq⟩
    cases heq
    rw [number_of_hexAhead] at h
    cases h
    refine ⟨'X', '\x27' :: (digits.takeWhile isHexDigit ++ ['\x27']),
      by simp [StringMark.text, StringQuote.text], .marked (.hex (by decide) (.plain (by simp) ?_))⟩
    have hcontent : ∀ x ∈ digits.takeWhile isHexDigit, special '\x27' true x = false :=
      (intact_plain_iff .hex .single).1 hi
    simpa using stringContent_of_not_special hcontent ha
  · rcases number_readBack hc hx h with ⟨u, hu, _, hread⟩
    exact ⟨c, u, hu, .number hc (hread after hr)⟩

/-- An intact token is read again in front of a text that it stands apart from, where that text
agrees with the one that followed it. -/
theorem Origin.reread (h : Origin d c rest t left) (hi : t.Intact d) (ha : t.Apart d after)
    (hr : Agree left after) : ∃ x u, t.chars = x :: u ∧ Origin d x (u ++ after) t after := by
  cases h with
  | space => exact ⟨' ', [], rfl, .space after⟩
  | tab => exact ⟨'\t', [], rfl, .tab after⟩
  | lineBreak | returnBreak | loneReturn => exact ⟨'\n', [], rfl, .lineBreak after⟩
  | single h =>
      rcases h.reread .single rfl hi hr with ⟨u, hu, hread⟩
      exact ⟨'\x27', u, hu, .single hread⟩
  | marked h =>
      rcases h.reread hi hr with ⟨l, u, hu, hread⟩
      exact ⟨l, u, hu, .marked hread⟩
  | name hq h =>
      rcases quotedName_reread hq h hi hr with ⟨u, hu, hread⟩
      exact ⟨c, u, hu, .name hq hread⟩
  | double hq h =>
      rcases h.reread .double rfl hi hr with ⟨u, hu, hread⟩
      exact ⟨'\x22', u, hu, .double hq hread⟩
  | number hc h => exact number_reread hc h hi ha hr
  | comment h =>
      rcases comment_readBack h with ⟨u, hu, _, hread⟩
      exact ⟨c, u, hu, .comment (hread after hr)⟩
  | operator hq hcomment h => exact operator_reread hq hcomment h ha hr
  | question h =>
      rcases question_reread h ha hr with ⟨u, hu, hread⟩
      exact ⟨'?', u, hu, .question hread⟩
  | word hc hsign hmark h =>
      rcases bareWord_readBack h with ⟨u, hu, rfl, hread⟩
      have hmark' : ¬ MarkedAhead d c (u ++ after) := fun hm => hmark (hm.of_agree (hr.append u))
      exact ⟨c, u, hu, .word hc hsign hmark' (hread after hr)⟩
  | dollar hd h =>
      rcases dollar_readBack h with ⟨u, hu, _, hread⟩
      exact ⟨'$', u, hu, .dollar hd (hread after hr)⟩
  | blank hc hb => exact ⟨' ', [], rfl, .space after⟩
  | character hc hb => exact ⟨c, [], by simp, .character hc hb after⟩

/-! ## Only intact tokens that stand apart -/

/-- A word that was read is intact and apart from what is left. -/
theorem bareWord_intact {first : List Char} (h : bareWord d first rest = (t, left)) :
    t.Intact d ∧ t.Apart d left := by
  cases h
  exact ⟨trivial, trivial⟩

/-- A number that was read from its first digits on is intact and apart from what is left. -/
theorem numberFrom_intact {digits : List Char} (h : numberFrom d digits rest = (t, left)) :
    t.Intact d ∧ t.Apart d left := by
  unfold numberFrom at h
  simp only at h
  split at h
  · cases h
    exact ⟨trivial, trivial⟩
  · split at h
    all_goals
      cases h
      exact ⟨trivial, trivial⟩

/-- A number that was read as it is written is intact and apart from what is left. -/
theorem number_intact {u : List Char} (h : number d (c :: rest) = (t, left))
    (hu : t.chars = c :: u) : t.Intact d ∧ t.Apart d left := by
  by_cases hx : HexAhead (c :: rest)
  · rcases hx with ⟨digits, heq⟩
    cases heq
    rw [number_of_hexAhead] at h
    cases h
    -- It is written with another character in front.
    simp [StringMark.text] at hu
  · rw [number_of_not_hexAhead hx] at h
    split at h
    · cases h
      exact ⟨trivial, trivial⟩
    · exact numberFrom_intact h

/-- A comment to the end of the line is a gap. -/
theorem lineComment_gap {opening : String} (h : lineComment opening rest = (t, left)) :
    ∃ g, t = .gap g := by
  unfold lineComment at h
  split at h
  all_goals
    cases h
    exact ⟨_, rfl⟩

theorem blockComment_gap (h : blockComment rest = .ok (t, left)) : ∃ g, t = .gap g := by
  unfold blockComment at h
  split at h
  · cases h
    exact ⟨_, rfl⟩
  · simp at h

/-- A comment is intact and apart from what is left. -/
theorem comment_intact (h : comment d c rest = some (.ok (t, left))) :
    t.Intact d ∧ t.Apart d left := by
  have hgap : ∃ g, t = .gap g := by
    unfold comment at h
    split at h
    · exact lineComment_gap (Except.ok.inj (Option.some.inj h))
    · exact blockComment_gap (Option.some.inj h)
    · split at h
      · exact lineComment_gap (Except.ok.inj (Option.some.inj h))
      · simp at h
    · simp at h
  rcases hgap with ⟨g, rfl⟩
  exact ⟨trivial, trivial⟩

/-- A word with a sign is intact and apart from what is left. -/
theorem signedWord_intact (h : signedWord d c rest = some (t, left)) :
    t.Intact d ∧ t.Apart d left := by
  rcases signedWord_eq_some.1 h with ⟨-, opening, s, -, -, hword⟩
  exact bareWord_intact hword

theorem plainOperator_intact {s : Symbol} (h : plainOperator d c s rest = (t, left)) :
    t.Intact d := by
  unfold plainOperator at h
  simp only at h
  split at h
  · unfold extensible at h
    split at h
    all_goals
      cases h
      trivial
  · cases h
    trivial

/-- An operator that was read as it is written is intact and apart from what is left. -/
theorem operator_intact {u : List Char} (h : operator d c rest = some (t, left))
    (hu : t.chars = c :: u) : t.Intact d ∧ t.Apart d left := by
  cases hword : signedWord d c rest with
  | some word =>
      rw [operator_eq, hword] at h
      exact signedWord_intact (hword.trans h)
  | none =>
      rw [operator_eq, hword] at h
      rcases Option.map_eq_some_iff.1 h with ⟨s, hs, hplain⟩
      refine ⟨plainOperator_intact hplain, ?_⟩
      rcases plainOperator_local hs hplain with ⟨rfl, rfl, rfl⟩ | ⟨_, _, _, hapart, _⟩
      · -- The second spelling is never written.
        have hspelling : ['<', '>'] = '!' :: u := hu
        simp at hspelling
      · exact hapart

/-- A question mark that was read as it is written is intact and apart from what is left. -/
theorem question_intact {u : List Char} (h : question d (u ++ left) = (t, left))
    (hu : t.chars = '?' :: u) : t.Intact d ∧ t.Apart d left := by
  generalize hrest : u ++ left = rest at h
  unfold question at h
  split at h
  · cases h
    exact ⟨trivial, trivial⟩
  · cases h
    exact ⟨trivial, trivial⟩
  · -- The sign takes the next character with it, so there is none after it.
    rcases Prod.mk.inj h with ⟨rfl, hleft⟩
    have hspelling : ['?'] = '?' :: u := hu
    have hnil : u = [] := (List.cons.inj hspelling).2.symm
    have hlen := congrArg List.length hleft
    rw [← hrest, hnil, List.nil_append, List.length_drop] at hlen
    refine ⟨trivial, List.eq_nil_of_length_eq_zero ?_⟩
    omega
  · cases h
    exact ⟨trivial, trivial⟩

/-- A dollar string is intact and apart from what is left. -/
theorem dollar_intact (h : dollar rest = .ok (t, left)) : t.Intact d ∧ t.Apart d left := by
  unfold dollar at h
  split at h
  · split at h
    · cases h
      exact ⟨trivial, trivial⟩
    · simp at h
  · simp only at h
    split at h
    · split at h
      · cases h
        exact ⟨trivial, trivial⟩
      · simp at h
    · cases h
      exact ⟨trivial, trivial⟩

/-- Only an intact token is read again, and only in front of a text that it stands apart from. -/
theorem Origin.intact {u : List Char} (hu : t.chars = c :: u) (h : Origin d c (u ++ left) t left) :
    t.Intact d ∧ t.Apart d left := by
  -- What follows the first character was read, and it is written as well: each reader says what
  -- a token is like that has the text it was read from.
  generalize hrest : u ++ left = rest at h
  cases h with
  | space | tab | lineBreak | returnBreak | loneReturn => exact ⟨trivial, trivial⟩
  | single h =>
      subst hrest
      have hchars : t.chars = StringMark.plain.text.toList ++ '\x27' :: u := hu
      exact ⟨h.intact .single rfl hchars, h.apart (by decide) _⟩
  | marked h =>
      subst hrest
      exact h.intact hu
  | name hq h =>
      subst hrest
      refine ⟨quotedName_intact hq hu h, ?_⟩
      rcases quotedName_eq_ok.1 h with ⟨content, _, rfl⟩
      trivial
  | double hq h =>
      subst hrest
      have hchars : t.chars = StringMark.plain.text.toList ++ '\x22' :: u := hu
      exact ⟨h.intact .double rfl hchars, h.apart (by decide) _⟩
  | number hc h => exact number_intact h hu
  | comment h => exact comment_intact h
  | operator hq hcomment h => exact operator_intact h hu
  | question h =>
      subst hrest
      exact question_intact h hu
  | word hc hsign hmark h => exact bareWord_intact h
  | dollar hd h => exact dollar_intact h
  | blank hc hb => exact ⟨trivial, trivial⟩
  | character hc hb => exact ⟨trivial, trivial⟩

end

end TypedSql.Lexer
