import Mathlib.Data.Bool.AllAny
import TypedSql.Proofs.Text.Ascii
import TypedSql.Token.Lexer

namespace TypedSql.Lexer

open Text

/-! # Texts that start alike

Tokens that are written out again start like the text they were read from, up to the first token
that is spelled in another way. `Agree` relates two such texts. A reader that looks ahead cannot
tell them apart: the classes of characters it asks for are kept by every other spelling
(`Agree.outside`), and so is whether an exponent follows (`Agree.exponentAhead`).
-/

/-! ## The front of a text -/

/-- The text does not start with a character of the class. -/
def Outside (p : Char → Bool) (s : List Char) : Prop := ∀ c ∈ s.head?, p c = false

@[simp] theorem outside_nil (p : Char → Bool) : Outside p [] := by
  simp [Outside]

/-- A text is outside a class when its first character is. -/
@[simp] theorem outside_cons {p : Char → Bool} {c : Char} {s : List Char} :
    Outside p (c :: s) ↔ p c = false := by
  simp [Outside]

/-- A text is outside a single character when it does not start with it. -/
theorem outside_beq {c : Char} {s : List Char} : Outside (· == c) s ↔ s.head? ≠ some c := by
  cases s <;> simp

theorem head?_ne_of_ne_cons {c : Char} {s : List Char} (h : ∀ t, s ≠ c :: t) :
    s.head? ≠ some c := by
  intro heq
  rcases List.head?_eq_some_iff.1 heq with ⟨t, rfl⟩
  exact h t rfl

/-- What is left after the longest run of a class is outside it. -/
theorem outside_dropWhile (p : Char → Bool) (s : List Char) : Outside p (s.dropWhile p) := by
  intro c hc
  have h := List.head?_dropWhile_not p s
  rw [Option.mem_def.1 hc] at h
  exact h

section

variable {p : Char → Bool} {w s : List Char}

/-- A run of a class before a text outside it is the longest one. -/
theorem takeWhile_append_of_outside (hw : ∀ c ∈ w, p c = true) (hs : Outside p s) :
    (w ++ s).takeWhile p = w := by
  rw [List.takeWhile_append_of_pos hw]
  cases s with
  | nil => simp
  | cons c s => simp [outside_cons.1 hs]

/-- After a run of a class before a text outside it that text is left. -/
theorem dropWhile_append_of_outside (hw : ∀ c ∈ w, p c = true) (hs : Outside p s) :
    (w ++ s).dropWhile p = s := by
  rw [List.dropWhile_append_of_pos hw]
  cases s with
  | nil => simp
  | cons c s => simp [outside_cons.1 hs]

theorem mem_takeWhile {c : Char} (h : c ∈ s.takeWhile p) : p c = true :=
  List.all_eq_true.1 List.all_takeWhile c h

end

/-! ## Other spellings -/

/-- The letters that mark a string, as they are written out. -/
def stringLetters : List Char := ['B', 'R', 'N', 'E', 'U', 'X']

/-- The characters that another spelling puts in front where the text had a different one. -/
def newHeads : List Char := '\n' :: ' ' :: '<' :: stringLetters

/-- The characters that open strings and delimited names, or may take one more with them. -/
def openers : List Char := ['\x27', '\x22', '\x60', '[', '?']

/-- The first text starts with a token that the second text spells in another way. -/
inductive Respelled : List Char → List Char → Prop
  | newline (s t : List Char) : Respelled ('\r' :: s) ('\n' :: t)
  | blank {c : Char} (h : isBlank c = true) (s t : List Char) : Respelled (c :: s) (' ' :: t)
  | hex (s t : List Char) : Respelled ('0' :: 'x' :: s) ('X' :: '\x27' :: t)
  | mark {c l q : Char} (hl : l ∈ stringLetters) (hc : c = l ∨ c = l.toLower)
      (hq : q ∈ ['\x27', '\x22', '&']) (s t : List Char) : Respelled (c :: q :: s) (l :: q :: t)
  | notEqual (s t : List Char) : Respelled ('!' :: '=' :: s) ('<' :: '>' :: t)
  | opened {q : Char} (hq : q ∈ openers) (s t : List Char) :
      Respelled (q :: s) (q :: t)

/-- The texts are the same up to a token that they spell in different ways. -/
inductive Agree : List Char → List Char → Prop
  | nil : Agree [] []
  | cons (c : Char) {s t : List Char} (h : Agree s t) : Agree (c :: s) (c :: t)
  | respelled {s t : List Char} (h : Respelled s t) : Agree s t

/-- What the first characters of two spellings have to do with each other. -/
inductive Alike : Char → Char → Prop
  | same (c : Char) : Alike c c
  | newline (s : Char) : Alike s '\n'
  | blank (s : Char) : Alike s ' '
  | hex : Alike '0' 'X'
  | mark {c l : Char} (hl : l ∈ stringLetters) (hc : c = l ∨ c = l.toLower) : Alike c l
  | notEqual : Alike '!' '<'

namespace Agree

variable {s t : List Char}

/-- Texts that agree still do with the same characters in front. -/
theorem append (u : List Char) (h : Agree s t) : Agree (u ++ s) (u ++ t) := by
  induction u with
  | nil => exact h
  | cons c u ih => exact .cons c ih

/-- The second text starts with a character only when the first one starts with one like it. -/
theorem head {c : Char} {t : List Char} (h : Agree s (c :: t)) :
    ∃ x s', s = x :: s' ∧ Alike x c := by
  cases h with
  | cons c h => exact ⟨c, _, rfl, .same c⟩
  | respelled h =>
      cases h with
      | newline s t => exact ⟨_, s, rfl, .newline _⟩
      | blank hb s t => exact ⟨_, s, rfl, .blank _⟩
      | hex s t => exact ⟨_, _, rfl, .hex⟩
      | mark hl hc hq s t => exact ⟨_, _, rfl, .mark hl hc⟩
      | notEqual s t => exact ⟨_, _, rfl, .notEqual⟩
      | opened hq s t => exact ⟨_, s, rfl, .same _⟩

/-- Only the empty text agrees with the end of the text. -/
theorem nil_right (h : Agree [] t) : t = [] := by
  cases t with
  | nil => rfl
  | cons c t =>
      rcases h.head with ⟨x, s', hs, _⟩
      exact absurd hs (by simp)

/-- A class that no other spelling enters is kept. -/
theorem outside {p : Char → Bool} (hp : ∀ x c, Alike x c → p c = true → p x = true)
    (h : Agree s t) (hs : Outside p s) : Outside p t := by
  cases t with
  | nil => exact outside_nil p
  | cons c t =>
      rcases h.head with ⟨x, s', rfl, hx⟩
      have hnot := outside_cons.1 hs
      rw [outside_cons]
      cases hc : p c with
      | false => rfl
      | true =>
          rw [hp x c hx hc] at hnot
          exact absurd hnot (by simp)

end Agree

/-! ## Classes that are kept -/

/-- A class is kept by other spellings when it is kept by each of the ways to spell a character
otherwise. -/
theorem alike_of_letters {p : Char → Bool} (hn : p '\n' = false) (hb : p ' ' = false)
    (hx : p 'X' = true → p '0' = true)
    (hl : ∀ l ∈ stringLetters, p l = true → p l.toLower = true)
    (he : p '<' = true → p '!' = true) :
    ∀ x c, Alike x c → p c = true → p x = true := by
  intro x c h hc
  cases h with
  | same => exact hc
  | newline => simp [hn] at hc
  | blank => simp [hb] at hc
  | hex => exact hx hc
  | mark hmem hx' =>
      rcases hx' with rfl | rfl
      · exact hc
      · exact hl _ hmem hc
  | notEqual => exact he hc

/-- Other spellings keep parts of names. -/
theorem alike_isNamePart (d : Dialect) :
    ∀ x c, Alike x c → d.isNamePart c = true → d.isNamePart x = true := by
  refine alike_of_letters ?_ ?_ ?_ ?_ ?_
  all_goals
    cases d <;> simp [Dialect.isNamePart, Dialect.isNameStart, isAlphabetic_of_ascii, stringLetters]

/-- Other spellings keep digits. -/
theorem alike_isDigit : ∀ x c, Alike x c → c.isDigit = true → x.isDigit = true := by
  exact alike_of_letters (by decide) (by decide) (by decide)
    (List.all_iff_forall_prop.1 (by decide)) (by decide)

/-- Other spellings keep parts of operators. -/
theorem alike_isOperatorPart (d : Dialect) :
    ∀ x c, Alike x c → d.isOperatorPart c = true → d.isOperatorPart x = true := by
  refine alike_of_letters ?_ ?_ ?_ (List.all_iff_forall_prop.1 ?_) ?_
  all_goals cases d <;> decide

/-- Other spellings keep numerals. -/
theorem alike_isNumeral : ∀ x c, Alike x c → isNumeral c = true → isNumeral x = true := by
  refine alike_of_letters ?_ ?_ ?_ ?_ ?_
  all_goals simp [isNumeral_of_ascii, stringLetters]

/-- Other spellings keep the characters of tags. -/
theorem alike_isTagChar : ∀ x c, Alike x c →
    (isAlphanumeric c || c == '_') = true → (isAlphanumeric x || x == '_') = true := by
  refine alike_of_letters ?_ ?_ ?_ ?_ ?_
  all_goals simp [isAlphanumeric_of_ascii, stringLetters]

/-- A class without any character that another spelling starts with is kept. -/
theorem alike_of_not_mem {p : Char → Bool} (hp : ∀ c ∈ newHeads, p c = false) :
    ∀ x c, Alike x c → p c = true → p x = true := by
  intro x c h hc
  have hnot : c ∉ newHeads := by
    intro hmem
    simp [hp c hmem] at hc
  cases h with
  | same => exact hc
  | mark hmem _ => exact absurd (List.mem_append_right ['\n', ' ', '<'] hmem) hnot
  | _ => exact absurd (by decide) hnot

/-- A character that no other spelling starts with is at the front of both texts or of none. -/
theorem Agree.head?_ne {s t : List Char} (h : Agree s t) {a : Char}
    (ha : a ∉ newHeads) (hs : s.head? ≠ some a) : t.head? ≠ some a := by
  refine outside_beq.1 (h.outside (alike_of_not_mem fun c hc => ?_) (outside_beq.2 hs))
  rw [beq_eq_false_iff_ne]
  rintro rfl
  exact ha hc

/-- A first character that no other spelling starts with is the same in both texts. -/
theorem Agree.head?_eq {s t : List Char} (h : Agree s t) {a : Char}
    (ha : a ∉ newHeads) (ht : t.head? = some a) : s.head? = some a :=
  Decidable.byContradiction fun hs => h.head?_ne ha hs ht

/-! ## Exponents -/

/-- The letter of an exponent, with a sign or without. -/
def ExponentLead (lead : List Char) : Prop :=
  ∃ e, (e = 'e' ∨ e = 'E') ∧ (lead = [e] ∨ ∃ sign, (sign = '+' ∨ sign = '-') ∧ lead = [e, sign])

/-- An exponent stands at the front of a text. -/
def ExponentAhead (s : List Char) : Prop :=
  ∃ lead c t, ExponentLead lead ∧ c.isDigit = true ∧ s = lead ++ c :: t

/-- A digit is no sign. -/
theorem not_sign_of_isDigit {c : Char} (h : c.isDigit = true) : ¬ (c = '+' ∨ c = '-') := by
  rintro (rfl | rfl) <;> exact absurd h (by decide)

/-- An exponent is read as far as its last digit. -/
theorem exponent_of_lead {lead : List Char} (hl : ExponentLead lead) {c : Char}
    (hc : c.isDigit = true) (t : List Char) :
    exponent (lead ++ c :: t) =
      (lead ++ (c :: t).takeWhile Char.isDigit, t.dropWhile Char.isDigit) := by
  rcases hl with ⟨e, he, rfl | ⟨sign, hsign, rfl⟩⟩
  · simp [exponent, he, not_sign_of_isDigit hc, hc]
  · simp [exponent, he, hsign, hc]

/-- Nothing is read where no exponent starts. -/
theorem exponent_of_not_ahead {s : List Char} (h : ¬ ExponentAhead s) : exponent s = ([], s) := by
  -- Past the letter and the sign there would have to be a digit.
  rcases s with _ | ⟨e, s⟩
  · rfl
  by_cases he : e = 'e' ∨ e = 'E'
  · rcases s with _ | ⟨c, s⟩
    · simp [exponent]
    have hc : ¬ c.isDigit = true := fun hc => h ⟨[e], c, s, ⟨e, he, .inl rfl⟩, hc, rfl⟩
    by_cases hsign : c = '+' ∨ c = '-'
    · rcases s with _ | ⟨x, s⟩
      · simp [exponent, hsign]
      have hx : ¬ x.isDigit = true := fun hx =>
        h ⟨[e, c], x, s, ⟨e, he, .inr ⟨c, hsign, rfl⟩⟩, hx, rfl⟩
      simp [exponent, hx, hsign]
    · simp [exponent, hsign, hc]
  · simp [exponent, he]

/-- A character that no other spelling starts with, before texts that agree. -/
theorem Agree.eq_cons {s t : List Char} {c : Char} (hc : c ∉ newHeads ++ openers)
    (h : Agree s (c :: t)) : ∃ s', s = c :: s' ∧ Agree s' t := by
  cases h with
  | cons c h => exact ⟨_, rfl, h⟩
  | respelled h =>
      exfalso
      cases h <;> simp_all [newHeads, openers, stringLetters]

/-- Characters that stay in front in every other spelling of their tokens. -/
def steadyHeads : List Char := [' ', '-', '>', '@', '?', '\x27', '\x22', '\x60']

/-- A steady first character stays first in another spelling. -/
theorem Agree.eq_cons_left {s t : List Char} {c : Char} (hc : c ∈ steadyHeads)
    (h : Agree (c :: s) t) : ∃ t', t = c :: t' := by
  cases h with
  | cons c h => exact ⟨_, rfl⟩
  | respelled h =>
      cases h with
      | opened hq s t => exact ⟨t, rfl⟩
      | blank hb s t =>
          -- Of the steady characters only the space is a blank, and a blank is written as a space.
          have hspace : ∀ x ∈ steadyHeads, isBlank x = true → x = ' ' :=
            List.all_iff_forall_prop.1 (by decide)
          exact ⟨t, by rw [hspace c hc hb]⟩
      | mark hl hx hq s t =>
          have hletter : ∀ l ∈ stringLetters, l ∉ steadyHeads ∧ l.toLower ∉ steadyHeads :=
            List.all_iff_forall_prop.1 (by decide)
          rcases hx with rfl | rfl
          · exact absurd hc (hletter _ hl).1
          · exact absurd hc (hletter _ hl).2
      | _ => simp [steadyHeads] at hc

/-- A digit or a sign is spelled in one way only. -/
theorem Agree.eq_cons_of_sign {s t : List Char} {c : Char}
    (hc : c.isDigit = true ∨ c = '+' ∨ c = '-') (h : Agree s (c :: t)) :
    ∃ s', s = c :: s' ∧ Agree s' t := by
  have hsign : ∀ x ∈ newHeads ++ openers, ¬ (x.isDigit = true ∨ x = '+' ∨ x = '-') :=
    List.all_iff_forall_prop.1 (by decide)
  exact h.eq_cons fun hmem => hsign c hmem hc

/-- No other spelling starts like an exponent: a marked string goes on with its quote. -/
theorem not_respelled_exponent {s t : List Char} {e c : Char} (he : e = 'e' ∨ e = 'E')
    (hc : c.isDigit = true ∨ c = '+' ∨ c = '-') : ¬ Respelled s (e :: c :: t) := by
  intro h
  have hsign : ∀ x ∈ ['\x27', '\x22', '&'], ¬ (x.isDigit = true ∨ x = '+' ∨ x = '-') :=
    List.all_iff_forall_prop.1 (by decide)
  cases h with
  | mark _ _ hq => exact hsign c hq hc
  | opened hq => rcases he with rfl | rfl <;> exact absurd hq (by decide)
  | _ => simp at he

/-- An exponent is ahead only where one is ahead in the text that was read. -/
theorem Agree.exponentAhead {s t : List Char} (h : Agree s t) (ht : ExponentAhead t) :
    ExponentAhead s := by
  -- The texts have the letter in common, and then the sign and the digit, which no other spelling
  -- starts with.
  rcases ht with ⟨lead, c, t, ⟨e, he, rfl | ⟨sign, hsign, rfl⟩⟩, hc, rfl⟩
  · cases h with
    | cons _ h =>
        rcases h.eq_cons_of_sign (.inl hc) with ⟨s', rfl, _⟩
        exact ⟨[e], c, s', ⟨e, he, .inl rfl⟩, hc, rfl⟩
    | respelled h => exact absurd h (not_respelled_exponent he (.inl hc))
  · cases h with
    | cons _ h =>
        rcases h.eq_cons_of_sign (.inr hsign) with ⟨s', rfl, h'⟩
        rcases h'.eq_cons_of_sign (.inl hc) with ⟨s'', rfl, _⟩
        exact ⟨[e, sign], c, s'', ⟨e, he, .inr ⟨sign, hsign, rfl⟩⟩, hc, rfl⟩
    | respelled h => exact absurd h (not_respelled_exponent he (.inr hsign))

/-- What an exponent takes does not depend on the spelling of what follows it. -/
theorem exponent_local {s power left : List Char} (h : exponent s = (power, left)) :
    s = power ++ left ∧ ∀ after, Agree left after → exponent (power ++ after) = (power, after) := by
  by_cases ha : ExponentAhead s
  · rcases ha with ⟨lead, c, t, hlead, hc, rfl⟩
    rw [exponent_of_lead hlead hc] at h
    cases h
    refine ⟨by simp [hc, List.takeWhile_append_dropWhile], ?_⟩
    intro after hafter
    -- The digits end where they ended, since no other spelling starts with one.
    have hend := hafter.outside alike_isDigit (outside_dropWhile Char.isDigit t)
    have hdigits : ∀ x ∈ t.takeWhile Char.isDigit, x.isDigit = true := by
      intro x hx
      exact mem_takeWhile hx
    have hpower : lead ++ (c :: t).takeWhile Char.isDigit ++ after =
        lead ++ c :: (t.takeWhile Char.isDigit ++ after) := by simp [hc]
    rw [hpower, exponent_of_lead hlead hc, dropWhile_append_of_outside hdigits hend]
    simp [hc, takeWhile_append_of_outside hdigits hend]
  · rw [exponent_of_not_ahead ha] at h
    cases h
    refine ⟨rfl, ?_⟩
    intro after hafter
    exact exponent_of_not_ahead fun hahead => ha (hafter.exponentAhead hahead)

end TypedSql.Lexer
