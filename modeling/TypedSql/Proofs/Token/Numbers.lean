import TypedSql.Proofs.Token.Verbatim

namespace TypedSql.Lexer

open Text

/-! # Numbers that are written out again

A number is made of digits, an exponent and the mark of a long one, and where a name goes on after
its digits it is a name. What decides among these stays the same in front of a text that agrees.
-/

section

variable {d : Dialect} {rest left : List Char} {t : Token}

/-! ## Hexadecimal strings -/

/-- A hexadecimal string starts here. -/
def HexAhead (s : List Char) : Prop := ∃ digits, s = '0' :: 'x' :: digits

/-- A string of base sixteen is ahead in both of two texts that agree. -/
theorem HexAhead.of_agree {s t : List Char} (hr : Agree s t) (h : HexAhead t) : HexAhead s := by
  rcases h with ⟨digits, rfl⟩
  rcases hr.eq_cons_of_sign (.inl (by decide)) with ⟨s, rfl, hs⟩
  rcases hs.eq_cons (by decide) with ⟨s, rfl, _⟩
  exact ⟨s, rfl⟩

/-- The digits after the mark of base sixteen are a string. -/
theorem number_of_hexAhead (d : Dialect) (digits : List Char) :
    number d ('0' :: 'x' :: digits) =
      (.string .hex .single (String.ofList (digits.takeWhile isHexDigit)),
        digits.dropWhile isHexDigit) := by
  simp [number]

/-- Otherwise a number is a point alone, or goes on from its digits. -/
theorem number_of_not_hexAhead (h : ¬ HexAhead rest) :
    number d rest =
      if (decimal rest).1 = ['.'] then (.symbol .dot, (decimal rest).2)
      else numberFrom d (decimal rest).1 (decimal rest).2 := by
  unfold number
  split
  · next digits htake hdrop =>
      have hrest := List.takeWhile_append_dropWhile (p := Char.isDigit) (l := rest)
      rw [htake, hdrop] at hrest
      exact absurd ⟨digits, hrest.symm⟩ h
  · rfl

/-! ## Digits and exponents -/

/-- Digits with a point in them are read without regard to what comes after them. -/
theorem decimal_local {digits : List Char} (h : decimal rest = (digits, left)) :
    rest = digits ++ left ∧
      ∀ after, Agree left after → decimal (digits ++ after) = (digits, after) := by
  have hwhole : ∀ c ∈ rest.takeWhile Char.isDigit, c.isDigit = true := fun c => mem_takeWhile
  have hout := outside_dropWhile Char.isDigit rest
  have hrest := List.takeWhile_append_dropWhile (p := Char.isDigit) (l := rest)
  -- The digits before the point and what comes after them, each ending where it ended.
  unfold decimal at h
  generalize rest.takeWhile Char.isDigit = whole at *
  generalize rest.dropWhile Char.isDigit = next at *
  subst hrest
  split at h
  · next part =>
      cases h
      have hpart : ∀ c ∈ part.takeWhile Char.isDigit, c.isDigit = true := fun c => mem_takeWhile
      refine ⟨by simp, ?_⟩
      intro after hr
      have hafter := hr.outside alike_isDigit (outside_dropWhile _ _)
      have hpoint : Outside Char.isDigit ('.' :: (part.takeWhile Char.isDigit ++ after)) :=
        outside_cons.2 (by decide)
      simp only [List.append_assoc, List.cons_append, decimal,
        takeWhile_append_of_outside hwhole hpoint, dropWhile_append_of_outside hwhole hpoint,
        takeWhile_append_of_outside hpart hafter, dropWhile_append_of_outside hpart hafter]
  · next hpoint =>
      cases h
      refine ⟨rfl, ?_⟩
      intro after hr
      have hafter := hr.outside alike_isDigit hout
      have hhead : after.head? ≠ some '.' :=
        hr.head?_ne (by decide) (head?_ne_of_ne_cons hpoint)
      simp only [decimal, takeWhile_append_of_outside hwhole hafter,
        dropWhile_append_of_outside hwhole hafter]
      split
      · exact absurd rfl hhead
      · rfl

/-- A text starts with the letter of an exponent. -/
def StartsExponent (s : List Char) : Prop := s.head? = some 'e' ∨ s.head? = some 'E'

/-- An exponent starts in both of two texts that agree. -/
theorem StartsExponent.agree {s t : List Char} (hr : Agree s t) (h : StartsExponent s) :
    StartsExponent t := by
  have hletter : ∀ l ∈ stringLetters, (l = 'e' ∨ l = 'E' ∨ l.toLower = 'e' ∨ l.toLower = 'E') →
      l = 'E' :=
    List.all_iff_forall_prop.1 (by decide)
  cases hr with
  | nil => exact h
  | cons c _ => exact h
  | respelled hr =>
      cases hr with
      | newline s t => simp [StartsExponent] at h
      | blank hb s t =>
          rcases h with h | h <;> cases h <;> exact absurd hb (by decide)
      | hex s t => simp [StartsExponent] at h
      | mark hl hc hq s t =>
          -- The letter of a string with escapes is the letter of an exponent, and stays it.
          refine .inr (congrArg some (hletter _ hl ?_))
          rcases h with h | h <;> cases h <;> rcases hc with hc | hc <;> simp [← hc]
      | notEqual s t => simp [StartsExponent] at h
      | opened hq s t => exact h

/-- An exponent that is there has started. -/
theorem ExponentAhead.starts (h : ExponentAhead rest) : StartsExponent rest := by
  rcases h with ⟨lead, c, s, ⟨e, he, rfl | ⟨sign, _, rfl⟩⟩, _, rfl⟩
  · simpa [StartsExponent] using he
  · simpa [StartsExponent] using he

/-- No name goes on after the digits of a number. -/
def Unnamed (d : Dialect) (rest : List Char) : Prop :=
  d.hasNumericNames = true → ¬ StartsExponent rest → Outside d.isNamePart rest

/-- Where a number is no name in a text, it is none in one that agrees. -/
theorem Unnamed.agree {s t : List Char} (hr : Agree s t) (h : Unnamed d s) : Unnamed d t := by
  intro hd ht
  exact hr.outside (alike_isNamePart d) (h hd fun hs => ht (hs.agree hr))

/-- An exponent starts with a letter of either case. -/
theorem startsExponent_iff :
    (decide (rest.head? = some 'e') || decide (rest.head? = some 'E')) = true ↔
      StartsExponent rest := by
  simp [StartsExponent]

/-- In a dialect with such names digits go on as a name. -/
theorem numberFrom_of_named {digits : List Char} (hd : d.hasNumericNames = true)
    (he : ¬ StartsExponent rest) (hname : ¬ Outside d.isNamePart rest) :
    numberFrom d digits rest =
      (.word ⟨String.ofList (digits ++ rest.takeWhile d.isNamePart), none⟩,
        rest.dropWhile d.isNamePart) := by
  have hexp := exponent_of_not_ahead fun ha => he ha.starts
  have hstart := Bool.eq_false_iff.2 fun h => he (startsExponent_iff.1 h)
  have htake : (rest.takeWhile d.isNamePart).isEmpty = false := by
    cases rest with
    | nil => exact absurd (outside_nil _) hname
    | cons c rest =>
        have hc : d.isNamePart c = true := by simpa using hname
        simp [hc]
  simp [numberFrom, hexp, hstart, htake, hd]

/-- A number, and the mark of a long one where it follows. -/
def numberMarked (digits : List Char) : List Char → Token × List Char
  | 'L' :: left => (.number (String.ofList digits) true, left)
  | left => (.number (String.ofList digits) false, left)

/-- The mark of a number is read back. -/
theorem numberMarked_readBack {digits : List Char} (h : numberMarked digits rest = (t, left)) :
    ReadBack (fun s t left => numberMarked digits s = (t, left)) digits rest t left := by
  unfold numberMarked at h
  split at h
  · cases h
    exact ⟨['L'], by simp, rfl, fun after _ => rfl⟩
  · next hlong =>
      cases h
      refine ⟨[], by simp, rfl, ?_⟩
      intro after hr
      have hhead : after.head? ≠ some 'L' :=
        hr.head?_ne (by decide) (head?_ne_of_ne_cons hlong)
      show numberMarked digits after = _
      unfold numberMarked
      split
      · exact absurd rfl hhead
      · rfl

/-- Digits that are no name go on with an exponent and a mark. -/
theorem numberFrom_of_unnamed {digits power : List Char} (h : Unnamed d rest)
    (hexp : exponent rest = (power, left)) :
    numberFrom d digits rest = numberMarked (digits ++ power) left := by
  unfold numberFrom
  simp only [hexp]
  rw [if_neg]
  · rfl
  -- Without an exponent a name would have to go on after the digits.
  intro hcond
  simp only [Bool.and_eq_true, Bool.not_eq_true', ← Bool.not_eq_true, startsExponent_iff] at hcond
  rcases hcond with ⟨⟨hd, he⟩, hname⟩
  have hnone := exponent_of_not_ahead fun ha => he ha.starts
  rw [hnone] at hexp
  cases hexp
  have hout := h hd he
  refine hname ?_
  cases rest with
  | nil => rfl
  | cons c rest => simp [outside_cons.1 hout]

/-- A number is read back from its digits on. -/
theorem numberFrom_readBack {digits : List Char} (h : numberFrom d digits rest = (t, left)) :
    ReadBack (fun s t left => numberFrom d digits s = (t, left)) digits rest t left := by
  by_cases hnamed : Unnamed d rest
  · -- What follows the digits: an exponent or none, and the mark of a long number or none.
    rcases hexp : exponent rest with ⟨power, next⟩
    rcases exponent_local hexp with ⟨rfl, hread⟩
    rw [numberFrom_of_unnamed hnamed hexp] at h
    rcases numberMarked_readBack h with ⟨u, hu, rfl, hmarked⟩
    refine ⟨power ++ u, by simp [hu], by simp, ?_⟩
    intro after hr
    have hnext := hr.append u
    have hunnamed := hnamed.agree (hnext.append power)
    rw [List.append_assoc]
    exact (numberFrom_of_unnamed hunnamed (hread _ hnext)).trans (hmarked after hr)
  · simp only [Unnamed, Classical.not_imp] at hnamed
    rcases hnamed with ⟨hd, he, hname⟩
    rw [numberFrom_of_named hd he hname] at h
    cases h
    refine ⟨rest.takeWhile d.isNamePart, by simp, by simp, ?_⟩
    intro after hr
    have hin : ∀ c ∈ rest.takeWhile d.isNamePart, d.isNamePart c = true := fun c => mem_takeWhile
    have hafter := hr.outside (alike_isNamePart d) (outside_dropWhile _ _)
    cases rest with
    | nil => exact absurd (outside_nil _) hname
    | cons c rest =>
        -- The first character of the name is kept, and it alone decides that there is a name.
        have hc : d.isNamePart c = true := by simpa using hname
        have hsame : StartsExponent ((c :: rest).takeWhile d.isNamePart ++ after) ↔
            StartsExponent (c :: rest) := by simp [StartsExponent, hc]
        have hout : ¬ Outside d.isNamePart ((c :: rest).takeWhile d.isNamePart ++ after) := by
          simp [hc]
        have hread := @numberFrom_of_named _ _ digits hd (fun hs => he (hsame.1 hs)) hout
        rw [takeWhile_append_of_outside hin hafter, dropWhile_append_of_outside hin hafter] at hread
        exact hread

/-- Digits start with the first digit or with the point. -/
theorem decimal_cons {c : Char} (hc : c.isDigit = true ∨ c = '.') (rest : List Char) :
    ∃ digits, (decimal (c :: rest)).1 = c :: digits := by
  rcases hc with hc | rfl
  · unfold decimal
    simp only [List.takeWhile_cons, hc, if_true]
    split <;> simp
  · exact ⟨rest.takeWhile Char.isDigit, by simp [decimal]⟩

/-- A number, a dot or a name that digits start, where no hexadecimal string starts. -/
theorem number_readBack {c : Char} (hc : c.isDigit = true ∨ c = '.') (hx : ¬ HexAhead (c :: rest))
    (h : number d (c :: rest) = (t, left)) :
    ReadBack (fun s t left => number d (c :: s) = (t, left)) [c] rest t left := by
  rw [number_of_not_hexAhead hx] at h
  rcases hdec : decimal (c :: rest) with ⟨all, next⟩
  rcases decimal_cons hc rest with ⟨digits, hdigits⟩
  rw [hdec] at hdigits h
  simp only at hdigits h
  subst hdigits
  rcases decimal_local hdec with ⟨hrest, hread⟩
  have hrest' : rest = digits ++ next := by simpa using hrest
  -- The digits are read again before every text that agrees with the one after them.
  have hnumber : ∀ s, Agree next s →
      number d (c :: (digits ++ s)) =
        if c :: digits = ['.'] then (.symbol .dot, s) else numberFrom d (c :: digits) s := by
    intro s hs
    have hagree : Agree (c :: rest) (c :: (digits ++ s)) := by
      rw [hrest']
      exact hs.append (c :: digits)
    have hdec' : decimal (c :: (digits ++ s)) = (c :: digits, s) := hread s hs
    rw [number_of_not_hexAhead fun hs => hx (hs.of_agree hagree), hdec']
  split at h
  · next hdot =>
      cases h
      refine ⟨digits, ?_, hrest', fun after hr => ?_⟩
      · rw [Token.chars_symbol]
        exact hdot.symm
      · exact (hnumber after hr).trans (if_pos hdot)
  · next hdot =>
      rcases numberFrom_readBack h with ⟨u, hu, rfl, hback⟩
      refine ⟨digits ++ u, by simpa using hu, by simp [hrest'], ?_⟩
      intro after hr
      show number d (c :: (digits ++ u ++ after)) = (t, after)
      rw [List.append_assoc, hnumber _ (hr.append u), if_neg hdot]
      exact hback after hr

end

end TypedSql.Lexer
