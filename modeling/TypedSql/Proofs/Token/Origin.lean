import TypedSql.Proofs.Token.Marked
import TypedSql.Proofs.Token.Numbers
import TypedSql.Proofs.Token.Operators

namespace TypedSql.Lexer

open Text

/-! # Where a token comes from

`Origin` has one case for every way in which `token` reads a token, with what has to be the case for
the ways before it not to apply.
-/

/-! ## Characters that say how a token is read -/

/-- The characters that are looked at before everything else. -/
def frontChars : List Char := " \t\n\r'".toList

def digitChars : List Char := "0123456789".toList

/-- The characters that are operators on their own. -/
def operatorChars : List Char := "(),-/+*%|=!<>:;\\[]&^\x7b\x7d~#@".toList

/-- The characters that say at once how a token is read. -/
def claimedChars : List Char := frontChars ++ ['\x22', '.', '?', '$'] ++ digitChars ++ operatorChars

/-- Nothing is known of a character that no token starts with. -/
structure Unclaimed (d : Dialect) (c : Char) : Prop where
  char : c ∉ claimedChars
  nameStart : d.isNameStart c = false
  nameQuote : d.isNameQuote c = false

section

variable {d : Dialect} {c : Char} {rest left : List Char} {t : Token}

/-- Operators start with an operator character only. -/
theorem operatorOf?_mem {s : Symbol} (h : operatorOf? c = some s) : c ∈ operatorChars := by
  unfold operatorOf? at h
  split at h <;> first | decide | simp at h

/-- Only the characters of operators open names or operators. -/
theorem operator_mem (h : operator d c rest = some (t, left)) : c ∈ operatorChars := by
  unfold operator at h
  split at h
  · next word hword =>
      rcases signedWord_eq_some.1 hword with ⟨-, opening, s, hopens, -, -⟩
      cases hopens <;> decide
  · rcases Option.map_eq_some_iff.1 h with ⟨s, hs, _⟩
    exact operatorOf?_mem hs

/-- Only an operator character starts an operator. -/
theorem operator_eq_none : operator d c rest = none ↔ c ∉ operatorChars := by
  constructor
  · intro h hc
    have hsome : ∀ x ∈ operatorChars, (operatorOf? x).isSome = true :=
      List.all_iff_forall_prop.1 (by decide)
    rcases Option.isSome_iff_exists.1 (hsome c hc) with ⟨s, hs⟩
    unfold operator at h
    rw [hs] at h
    split at h <;> simp at h
  · intro h
    cases hc : operator d c rest with
    | none => rfl
    | some result => exact absurd (operator_mem hc) h

/-- Comments start with a dash, a slash or a number sign. -/
theorem comment_mem {scan : Scan} (h : comment d c rest = some scan) : c ∈ ['-', '/', '#'] := by
  unfold comment at h
  split at h <;> first | decide | simp at h

/-- What starts no operator starts no comment. -/
theorem comment_eq_none (h : c ∉ operatorChars) : comment d c rest = none := by
  have hsub : ∀ x ∈ ['-', '/', '#'], x ∈ operatorChars :=
    List.all_iff_forall_prop.1 (by decide)
  cases hc : comment d c rest with
  | none => rfl
  | some result => exact absurd (hsub c (comment_mem hc)) h

end

/-! ## The ways of reading a token -/

/-- How `t` was read off the front of a text that starts with `c`. -/
inductive Origin (d : Dialect) : Char → List Char → Token → List Char → Prop
  | space (rest : List Char) : Origin d ' ' rest (.gap .space) rest
  | tab (rest : List Char) : Origin d '\t' rest (.gap .tab) rest
  | lineBreak (rest : List Char) : Origin d '\n' rest (.gap .newline) rest
  | returnBreak (rest : List Char) : Origin d '\r' ('\n' :: rest) (.gap .newline) rest
  | loneReturn {rest : List Char} (h : rest.head? ≠ some '\n') :
      Origin d '\r' rest (.gap .newline) rest
  | single {rest t left}
      (h : StringRead d.hasTripleQuotes .plain d.hasBackslashEscapes '\x27' rest t left) :
      Origin d '\x27' rest t left
  | marked {c rest t left} (h : MarkedRead d c rest t left) : Origin d c rest t left
  | name {c rest t left} (hq : d.isNameQuote c = true) (h : quotedName c rest = .ok (t, left)) :
      Origin d c rest t left
  | double {rest t left} (hq : d.isNameQuote '\x22' = false)
      (h : StringRead d.hasTripleQuotes .plain d.hasBackslashEscapes '\x22' rest t left) :
      Origin d '\x22' rest t left
  | number {c rest t left} (hc : c.isDigit = true ∨ c = '.')
      (h : Lexer.number d (c :: rest) = (t, left)) : Origin d c rest t left
  | comment {c rest t left} (h : Lexer.comment d c rest = some (.ok (t, left))) :
      Origin d c rest t left
  | operator {c rest t left} (hq : d.isNameQuote c = false)
      (hcomment : Lexer.comment d c rest = none)
      (h : Lexer.operator d c rest = some (t, left)) : Origin d c rest t left
  | question {rest t left} (h : Lexer.question d rest = (t, left)) : Origin d '?' rest t left
  | word {c rest t left} (hc : d.isNameStart c = true) (hsign : c ∉ operatorChars)
      (hmark : ¬ MarkedAhead d c rest) (h : bareWord d [c] rest = (t, left)) :
      Origin d c rest t left
  | dollar {rest t left} (hd : d.isNameStart '$' = false) (h : Lexer.dollar rest = .ok (t, left)) :
      Origin d '$' rest t left
  | blank {c : Char} (hc : Unclaimed d c) (hb : isBlank c = true) (rest : List Char) :
      Origin d c rest (.gap .space) rest
  | character {c : Char} (hc : Unclaimed d c) (hb : isBlank c = false) (rest : List Char) :
      Origin d c rest (.character c) rest

section

variable {d : Dialect} {c : Char} {rest left : List Char} {t : Token}

/-- A character that quotes names in no dialect quotes none in this one. -/
theorem isNameQuote_eq_false (h : c ∉ nameQuotes) : d.isNameQuote c = false := by
  cases hq : d.isNameQuote c with
  | false => rfl
  | true => exact absurd (isNameQuote_mem hq) h

theorem mem_digitChars : c ∈ digitChars ↔ c.isDigit = true := by
  constructor
  · have hdigit : ∀ x ∈ digitChars, x.isDigit = true := List.all_iff_forall_prop.1 (by decide)
    exact hdigit c
  · intro h
    have hdigit : ∀ n, n < 58 → 48 ≤ n → Char.ofNat n ∈ digitChars := by decide
    simp only [Char.isDigit, Bool.and_eq_true, decide_eq_true_eq, ge_iff_le,
      UInt32.le_iff_toNat_le] at h
    have hc := hdigit c.toNat (Nat.lt_succ_of_le h.2) h.1
    rwa [Char.ofNat_toNat] at hc

/-- What starts a name in some dialect starts nothing else but operators. -/
theorem isNameStart_not_mem (h : d.isNameStart c = true) :
    c ∉ frontChars ++ nameQuotes ++ digitChars ++ ['.', '?'] := by
  intro hc
  have hascii : ∀ x ∈ frontChars ++ nameQuotes ++ digitChars ++ ['.', '?'],
      x.toNat < 0x7F ∧ x.isAlpha = false ∧ x ≠ '_' ∧ x ≠ '$' ∧ x ≠ '@' ∧ x ≠ '#' :=
    List.all_iff_forall_prop.1 (by decide)
  rcases hascii c hc with ⟨hlt, halpha, h1, h2, h3, h4⟩
  have halphabetic := isAlphabetic_of_ascii (c := c) (by omega)
  cases d <;> simp [Dialect.isNameStart, *] at h <;> omega

/-- Letters start names in every dialect. -/
theorem toLower_not_mem (h : d.isNameStart c = false) : c.toLower ∉ markLetters := by
  have hcapital : ∀ x ∈ markLetters, x.toUpper ∈ stringLetters ∧ x = x.toUpper.toLower :=
    List.all_iff_forall_prop.1 (by decide)
  have halpha : ∀ l ∈ stringLetters, l.isAlpha = true ∧ l.toLower.isAlpha = true :=
    List.all_iff_forall_prop.1 (by decide)
  intro hc
  rcases hcapital _ hc with ⟨hl, hlower⟩
  have hletter : c.isAlpha = true := by
    rcases letter_of_toLower hl hlower with heq | heq <;> rw [heq]
    · exact (halpha _ hl).1
    · exact (halpha _ hl).2
  cases d <;> simp [Dialect.isNameStart, isAlphabetic, hletter] at h

/-! ## Bare tokens -/

/-- The ways of reading that come before comments and operators do not apply. -/
structure Late (d : Dialect) (c : Char) (rest : List Char) : Prop where
  front : c ∉ frontChars
  mark : markedString d c rest = none
  quote : d.isNameQuote c = false
  double : c ≠ '\x22'
  digit : c ∉ digitChars
  dot : c ≠ '.'

/-- Signs are looked at late, unless names are quoted with them. -/
theorem late_of_sign (hc : c ∈ operatorChars ++ ['?', '$']) (hq : d.isNameQuote c = false) :
    Late d c rest := by
  have hfacts : ∀ x ∈ operatorChars ++ ['?', '$'], x ∉ frontChars ∧ x.toLower ∉ markLetters ∧
      x ≠ '\x22' ∧ x ∉ digitChars ∧ x ≠ '.' :=
    List.all_iff_forall_prop.1 (by decide)
  rcases hfacts c hc with ⟨hfront, hletter, hdouble, hdigit, hdot⟩
  exact ⟨hfront, markedString_of_not_letter hletter, hq, hdouble, hdigit, hdot⟩

/-- A character that no way of reading claims comes late. -/
theorem late_of_unclaimed (hc : Unclaimed d c) : Late d c rest := by
  have hnot : ∀ x ∈ claimedChars, c ≠ x := by
    rintro x hx rfl
    exact hc.char hx
  have hfront : ∀ x ∈ frontChars ++ digitChars, x ∈ claimedChars :=
    List.all_iff_forall_prop.1 (by decide)
  exact {
    front := fun h => hc.char (hfront c (List.mem_append_left _ h))
    mark := markedString_of_not_letter (toLower_not_mem hc.nameStart)
    quote := hc.nameQuote
    double := hnot _ (by decide)
    digit := fun h => hc.char (hfront c (List.mem_append_right _ h))
    dot := hnot _ (by decide) }

/-- The start of a name comes late, where no mark of a string is ahead. -/
theorem late_of_isNameStart (hc : d.isNameStart c = true) (hmark : ¬ MarkedAhead d c rest) :
    Late d c rest := by
  have hnot := isNameStart_not_mem hc
  simp only [List.mem_append, not_or] at hnot
  rcases hnot with ⟨⟨⟨hfront, hquote⟩, hdigit⟩, hdot⟩
  refine ⟨hfront, markedString_eq_none.2 hmark, isNameQuote_eq_false hquote, ?_, hdigit, ?_⟩
  · rintro rfl
    exact hquote (by decide)
  · rintro rfl
    exact hdot (by decide)

/-- A late character that starts neither a sign nor a name is claimed by no way of reading. -/
theorem unclaimed_of_late (hlate : Late d c rest) (hsign : c ∉ operatorChars) (hquestion : c ≠ '?')
    (hdollar : c ≠ '$') (hname : d.isNameStart c = false) : Unclaimed d c := by
  refine ⟨?_, hname, hlate.quote⟩
  simp only [claimedChars, List.mem_append, List.mem_cons, List.not_mem_nil, or_false, not_or]
  exact ⟨⟨⟨hlate.front, hlate.double, hlate.dot, hquestion, hdollar⟩, hlate.digit⟩, hsign⟩

/-- A character that is not claimed is a blank or stands for itself. -/
theorem Unclaimed.bareToken_eq (hc : Unclaimed d c) :
    bareToken d c rest =
      if isBlank c then .ok (.gap .space, rest) else .ok (.character c, rest) := by
  have hsign : c ∉ operatorChars := fun h => hc.char (List.mem_append_right _ h)
  have hquestion : c ≠ '?' := by
    rintro rfl
    exact hc.char (by decide)
  have hdollar : c ≠ '$' := by
    rintro rfl
    exact hc.char (by decide)
  rw [bareToken, comment_eq_none hsign, operator_eq_none.2 hsign]
  simp only [if_neg hquestion, hc.nameStart, if_neg hdollar, Bool.false_eq_true, if_false]

/-- A bare token comes from a way of reading that comes late. -/
theorem origin_of_bareToken (hlate : Late d c rest) (h : bareToken d c rest = .ok (t, left)) :
    Origin d c rest t left := by
  unfold bareToken at h
  cases hcomment : comment d c rest with
  | some scan =>
      simp only [hcomment] at h
      exact .comment (hcomment.trans (congrArg some h))
  | none =>
  simp only [hcomment] at h
  cases hop : operator d c rest with
  | some result =>
      simp only [hop] at h
      exact .operator hlate.quote hcomment (hop.trans (congrArg some (Except.ok.inj h)))
  | none =>
  simp only [hop] at h
  have hsign := operator_eq_none.1 hop
  by_cases hquestion : c = '?'
  · subst hquestion
    exact .question (Except.ok.inj h)
  rw [if_neg hquestion] at h
  by_cases hname : d.isNameStart c = true
  · rw [if_pos hname] at h
    exact .word hname hsign (markedString_eq_none.1 hlate.mark) (Except.ok.inj h)
  rw [if_neg hname] at h
  rw [Bool.not_eq_true] at hname
  by_cases hdollar : c = '$'
  · subst hdollar
    exact .dollar hname h
  -- Nothing has claimed the character, so it is a blank or a token by itself.
  rw [if_neg hdollar] at h
  have hun := unclaimed_of_late hlate hsign hquestion hdollar hname
  by_cases hb : isBlank c = true
  · rw [if_pos hb] at h
    cases h
    exact .blank hun hb _
  · rw [if_neg hb] at h
    cases h
    exact .character hun (by simpa using hb) _

/-! ## All tokens -/

/-- A character that starts nothing in front starts an ordinary token. -/
theorem token_eq_ordinaryToken (hc : c ∉ frontChars) : token d c rest = ordinaryToken d c rest := by
  unfold token
  split <;> first | rfl | exact absurd (by decide) hc

/-- A late character starts a bare token. -/
theorem Late.token_eq (h : Late d c rest) : token d c rest = bareToken d c rest := by
  have hdigit : (c.isDigit || c = '.') = false := by
    rw [Bool.or_eq_false_iff, decide_eq_false_iff_not, ← Bool.not_eq_true, ← mem_digitChars]
    exact ⟨h.digit, h.dot⟩
  rw [token_eq_ordinaryToken h.front]
  simp only [ordinaryToken, h.mark, h.quote, hdigit, if_neg h.double, Bool.false_eq_true, if_false]

/-- An ordinary token comes from one of the ways of reading. -/
theorem origin_of_ordinaryToken (hc : c ∉ frontChars)
    (h : ordinaryToken d c rest = .ok (t, left)) : Origin d c rest t left := by
  unfold ordinaryToken at h
  cases hmark : markedString d c rest with
  | some scan =>
      simp only [hmark] at h
      exact .marked (markedString_eq_some_ok.1 (hmark.trans (congrArg some h)))
  | none =>
  simp only [hmark] at h
  by_cases hq : d.isNameQuote c = true
  · rw [if_pos hq] at h
    exact .name hq h
  rw [if_neg hq] at h
  rw [Bool.not_eq_true] at hq
  by_cases hdouble : c = '\x22'
  · subst hdouble
    exact .double hq (stringIn_eq_ok.1 h)
  rw [if_neg hdouble] at h
  by_cases hnumber : c.isDigit = true ∨ c = '.'
  · rw [if_pos (by simpa using hnumber)] at h
    exact .number hnumber (Except.ok.inj h)
  rw [if_neg (by simpa using hnumber)] at h
  rw [not_or, ← mem_digitChars] at hnumber
  exact origin_of_bareToken ⟨hc, hmark, hq, hdouble, hnumber.1, hnumber.2⟩ h

/-- A name in quotes is a token. -/
theorem token_of_quotedName (hq : d.isNameQuote c = true)
    (h : quotedName c rest = .ok (t, left)) : token d c rest = .ok (t, left) := by
  have hfacts : ∀ x ∈ nameQuotes, x ∉ frontChars ∧ x.toLower ∉ markLetters :=
    List.all_iff_forall_prop.1 (by decide)
  rcases hfacts c (isNameQuote_mem hq) with ⟨hfront, hletter⟩
  rw [token_eq_ordinaryToken hfront]
  simpa only [ordinaryToken, markedString_of_not_letter hletter, if_pos hq] using h

/-- A number is a token. -/
theorem token_of_number (hc : c.isDigit = true ∨ c = '.')
    (h : number d (c :: rest) = (t, left)) : token d c rest = .ok (t, left) := by
  have hfacts : ∀ x ∈ '.' :: digitChars, x ∉ frontChars ∧ x ∉ nameQuotes ∧
      x.toLower ∉ markLetters ∧ x ≠ '\x22' :=
    List.all_iff_forall_prop.1 (by decide)
  have hmem : c ∈ '.' :: digitChars := by
    rcases hc with hc | rfl
    · exact List.mem_cons_of_mem _ (mem_digitChars.2 hc)
    · exact List.mem_cons_self
  rcases hfacts c hmem with ⟨hfront, hquote, hletter, hdouble⟩
  rw [token_eq_ordinaryToken hfront]
  simp [ordinaryToken, markedString_of_not_letter hletter, isNameQuote_eq_false hquote, hdouble,
    hc, h]

/-- A comment is a token. -/
theorem token_of_comment (h : comment d c rest = some (.ok (t, left))) :
    token d c rest = .ok (t, left) := by
  have hfacts : ∀ x ∈ ['-', '/', '#'], x ∈ operatorChars ∧ x ∉ nameQuotes :=
    List.all_iff_forall_prop.1 (by decide)
  rcases hfacts c (comment_mem h) with ⟨hop, hquote⟩
  have hlate : Late d c rest :=
    late_of_sign (List.mem_append_left _ hop) (isNameQuote_eq_false hquote)
  rw [hlate.token_eq, bareToken, h]

/-- An operator that starts no comment is a token. -/
theorem token_of_operator (hq : d.isNameQuote c = false) (hcomment : comment d c rest = none)
    (h : operator d c rest = some (t, left)) : token d c rest = .ok (t, left) := by
  have hlate : Late d c rest := late_of_sign (List.mem_append_left _ (operator_mem h)) hq
  rw [hlate.token_eq, bareToken, hcomment, h]

/-- A word without quotes is a token. -/
theorem token_of_bareWord (hc : d.isNameStart c = true) (hsign : c ∉ operatorChars)
    (hmark : ¬ MarkedAhead d c rest) (h : bareWord d [c] rest = (t, left)) :
    token d c rest = .ok (t, left) := by
  have hquestion : c ≠ '?' := by
    rintro rfl
    exact isNameStart_not_mem hc (by decide)
  rw [(late_of_isNameStart hc hmark).token_eq, bareToken, comment_eq_none hsign,
    operator_eq_none.2 hsign]
  simp only [if_neg hquestion, if_pos hc, h]

/-- A question mark starts a placeholder or an operator. -/
theorem token_question (d : Dialect) (rest : List Char) :
    token d '?' rest = .ok (question d rest) := by
  have hlate : Late d '?' rest := late_of_sign (by decide) (isNameQuote_eq_false (by decide))
  have hsign : '?' ∉ operatorChars := by decide
  rw [hlate.token_eq, bareToken, comment_eq_none hsign, operator_eq_none.2 hsign]
  rfl

/-- A dollar sign that starts no name starts a placeholder or a string. -/
theorem token_dollar (hd : d.isNameStart '$' = false) (rest : List Char) :
    token d '$' rest = dollar rest := by
  have hlate : Late d '$' rest := late_of_sign (by decide) (isNameQuote_eq_false (by decide))
  have hsign : '$' ∉ operatorChars := by decide
  rw [hlate.token_eq, bareToken, comment_eq_none hsign, operator_eq_none.2 hsign]
  simp [hd]

/-- What a way of reading gives is the token. -/
theorem token_of_origin (h : Origin d c rest t left) : token d c rest = .ok (t, left) := by
  cases h with
  | space => rfl
  | tab => rfl
  | lineBreak => rfl
  | returnBreak => rfl
  | loneReturn h =>
      unfold token
      simp only
      split
      · exact absurd rfl h
      · rfl
  | single h => exact stringIn_eq_ok.2 h
  | marked h =>
      have hfront : ∀ x ∈ frontChars, x.toLower ∉ markLetters :=
        List.all_iff_forall_prop.1 (by decide)
      rw [token_eq_ordinaryToken fun hc => hfront c hc h.toLower_mem]
      simp only [ordinaryToken, markedString_eq_some_ok.2 h]
  | name hq h => exact token_of_quotedName hq h
  | double hq h =>
      rw [token_eq_ordinaryToken (by decide)]
      have hmark : markedString d '\x22' rest = none := markedString_of_not_letter (by decide)
      simpa [ordinaryToken, hmark, hq] using stringIn_eq_ok.2 h
  | number hc h => exact token_of_number hc h
  | comment h => exact token_of_comment h
  | operator hq hcomment h => exact token_of_operator hq hcomment h
  | question h => rw [token_question, h]
  | word hc hsign hmark h => exact token_of_bareWord hc hsign hmark h
  | dollar hd h => rw [token_dollar hd, h]
  | blank hc hb =>
      rw [(late_of_unclaimed hc).token_eq, hc.bareToken_eq, if_pos hb]
  | character hc hb =>
      rw [(late_of_unclaimed hc).token_eq, hc.bareToken_eq, if_neg (by simp [hb])]

theorem token_eq_ok : token d c rest = .ok (t, left) ↔ Origin d c rest t left := by
  constructor
  · intro h
    by_cases hc : c ∈ frontChars
    · have hfront : c = ' ' ∨ c = '\t' ∨ c = '\n' ∨ c = '\r' ∨ c = '\x27' := by
        simpa [frontChars] using hc
      rcases hfront with
        rfl | rfl | rfl | rfl | rfl
      · cases h
        exact .space _
      · cases h
        exact .tab _
      · cases h
        exact .lineBreak _
      · unfold token at h
        simp only at h
        split at h
        · cases h
          exact .returnBreak _
        · next hnot =>
            cases h
            exact .loneReturn (head?_ne_of_ne_cons hnot)
      · exact .single (stringIn_eq_ok.1 h)
    · rw [token_eq_ordinaryToken hc] at h
      exact origin_of_ordinaryToken hc h
  · exact token_of_origin

end

end TypedSql.Lexer
