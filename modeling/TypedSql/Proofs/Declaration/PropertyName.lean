import TypedSql.Token.Lexer

namespace TypedSql

/-! # Property names

What may stand for the name of a field in a TypeScript declaration: an identifier, a numeric
literal, or a string on one line. A name ends by itself, so the colon after it is found without
knowing the name.
-/

namespace PropertyName

open Lexer

/-! ## Characters -/

/-- The characters that end a line. -/
def lineEnds : List Char := ['\n', '\r', '\u2028', '\u2029']

/-- The quotes that a string may stand between. -/
def quotes : List Char := ['\x22', '\x27']

/-- The characters beyond ASCII that an identifier may start with and go on with. Unicode decides
which these are; no end of a line is one. -/
structure WideLetters where
  start : Char → Bool
  part : Char → Bool
  wide : ∀ c, start c || part c → 128 ≤ c.toNat
  inline : ∀ c, start c || part c → c ∉ lineEnds

namespace WideLetters

variable (w : WideLetters)

/-- A character that an identifier may start with. -/
def isStart (c : Char) : Bool := c.isAlpha || c == '_' || c == '$' || w.start c

/-- A character that an identifier may go on with. -/
def isPart (c : Char) : Bool := c.isAlphanum || c == '_' || c == '$' || w.part c

/-- No letters beyond ASCII. -/
def empty : WideLetters := ⟨fun _ => false, fun _ => false, nofun, nofun⟩

end WideLetters

/-! ## Code points in escapes -/

/-- The number that hexadecimal digits write. -/
def hexNumber (digits : List Char) : Nat :=
  digits.foldl (fun n c => n * 16 + (hexDigit? c).getD 0) 0

/-- A code point is written with four digits, or with any number of them in braces. -/
inductive CodePoint : List Char → Nat → Prop
  | fixed {digits : List Char} (hlength : digits.length = 4)
      (hdigits : ∀ c ∈ digits, isHexDigit c = true) : CodePoint digits (hexNumber digits)
  | braced {digits : List Char} (hne : digits ≠ []) (hdigits : ∀ c ∈ digits, isHexDigit c = true)
      (hbound : hexNumber digits ≤ 0x10FFFF) :
      CodePoint ('\x7b' :: (digits ++ ['\x7d'])) (hexNumber digits)

/-! ## Identifiers -/

/-- One character of an identifier, written as it is or by its code point. -/
inductive Letter (allowed : Char → Bool) : List Char → Prop
  | plain {c : Char} (hc : allowed c = true) : Letter allowed [c]
  | escaped {digits : List Char} {n : Nat} (hdigits : CodePoint digits n) (hn : n.isValidChar)
      (hc : allowed (Char.ofNat n) = true) : Letter allowed ('\\' :: 'u' :: digits)

/-- What an identifier goes on with. -/
inductive IdentifierRest (w : WideLetters) : List Char → Prop
  | nil : IdentifierRest w []
  | cons {letter s : List Char} (hletter : Letter w.isPart letter) (h : IdentifierRest w s) :
      IdentifierRest w (letter ++ s)

/-- An identifier. Reserved words are allowed where a property is named. -/
inductive Identifier (w : WideLetters) : List Char → Prop
  | intro {letter s : List Char} (hletter : Letter w.isStart letter) (h : IdentifierRest w s) :
      Identifier w (letter ++ s)

/-! ## Numeric literals -/

/-- Digits, with single underscores between them. -/
inductive Digits (digit : Char → Bool) : List Char → Prop
  | single {c : Char} (hc : digit c = true) : Digits digit [c]
  | cons {c : Char} {s : List Char} (hc : digit c = true) (h : Digits digit s) :
      Digits digit (c :: s)
  | separated {c : Char} {s : List Char} (hc : digit c = true) (h : Digits digit s) :
      Digits digit (c :: '_' :: s)

/-- The digits of a decimal number before the point: a zero stands alone. -/
inductive Whole : List Char → Prop
  | zero : Whole ['0']
  | positive {s : List Char} (h : Digits Char.isDigit s) (hzero : s.head? ≠ some '0') : Whole s

/-- The power of ten of a decimal number. -/
inductive Exponent : List Char → Prop
  | none : Exponent []
  | unsigned {e : Char} {s : List Char} (he : e ∈ ['e', 'E']) (h : Digits Char.isDigit s) :
      Exponent (e :: s)
  | signed {e sign : Char} {s : List Char} (he : e ∈ ['e', 'E']) (hsign : sign ∈ ['+', '-'])
      (h : Digits Char.isDigit s) : Exponent (e :: sign :: s)

/-- The digits that a letter after a zero announces. -/
inductive Radix : Char → (Char → Bool) → Prop
  | binary {c : Char} (hc : c ∈ ['b', 'B']) : Radix c fun d => d == '0' || d == '1'
  | octal {c : Char} (hc : c ∈ ['o', 'O']) : Radix c fun d => (octalDigit? d).isSome
  | hexadecimal {c : Char} (hc : c ∈ ['x', 'X']) : Radix c isHexDigit

/-- A number. -/
inductive Numeral : List Char → Prop
  | whole {n e : List Char} (hn : Whole n) (he : Exponent e) : Numeral (n ++ e)
  | pointed {n e : List Char} (hn : Whole n) (he : Exponent e) : Numeral (n ++ '.' :: e)
  | fraction {n f e : List Char} (hn : n = [] ∨ Whole n) (hf : Digits Char.isDigit f)
      (he : Exponent e) : Numeral (n ++ '.' :: (f ++ e))
  | radix {c : Char} {digit : Char → Bool} {s : List Char} (hc : Radix c digit)
      (h : Digits digit s) : Numeral ('0' :: c :: s)

/-! ## Strings -/

/-- What may follow a backslash in a string on one line. -/
inductive Escape : List Char → Prop
  | character {c : Char} (hdigit : c.isDigit = false) (hletter : c ∉ ['x', 'u'])
      (hline : c ∉ lineEnds) : Escape [c]
  | byte {a b : Char} (ha : isHexDigit a = true) (hb : isHexDigit b = true) : Escape ['x', a, b]
  | codePoint {digits : List Char} {n : Nat} (h : CodePoint digits n) : Escape ('u' :: digits)

/-- What stands between the quotes of a string. A zero after a backslash is the null character only
where no digit follows. -/
inductive Content (quote : Char) : List Char → Prop
  | nil : Content quote []
  | plain {c : Char} {s : List Char} (hquote : c ≠ quote) (hslash : c ≠ '\\') (hline : c ∉ lineEnds)
      (h : Content quote s) : Content quote (c :: s)
  | escaped {e s : List Char} (he : Escape e) (h : Content quote s) :
      Content quote ('\\' :: (e ++ s))
  | null {s : List Char} (hdigit : ∀ c ∈ s.head?, c.isDigit = false) (h : Content quote s) :
      Content quote ('\\' :: '0' :: s)

end PropertyName

open PropertyName in
/-- A text that may name a property. -/
inductive PropertyName (w : WideLetters) : List Char → Prop
  | identifier {s : List Char} (h : Identifier w s) : PropertyName w s
  | numeral {s : List Char} (h : Numeral s) : PropertyName w s
  | string {quote : Char} {s : List Char} (hquote : quote ∈ quotes) (h : Content quote s) :
      PropertyName w (quote :: (s ++ [quote]))

namespace PropertyName

open Lexer

/-! ## Names hold no delimiter -/

/-- The characters that stand around names. Of all names only a string may have some in it. -/
def delimiters : List Char := ':' :: ' ' :: (quotes ++ lineEnds)

/-- A text without delimiters. -/
def Bare (s : List Char) : Prop := ∀ c ∈ s, c ∉ delimiters

/-- Two texts without delimiters make one without. -/
theorem Bare.append {s t : List Char} (hs : Bare s) (ht : Bare t) : Bare (s ++ t) := by
  intro c hc
  rcases List.mem_append.1 hc with hc | hc
  · exact hs c hc
  · exact ht c hc

/-- A character that is no delimiter may be put in front. -/
theorem Bare.cons {c : Char} {s : List Char} (hc : c ∉ delimiters) (hs : Bare s) :
    Bare (c :: s) := by
  have hfirst : Bare [c] := by
    intro d hd
    rwa [List.mem_singleton.1 hd]
  exact hfirst.append hs

/-- Whether a text has no delimiters can be computed. -/
theorem bare_of_all {s : List Char} (h : s.all (fun c => !delimiters.contains c) = true) :
    Bare s := by
  intro c hc
  simpa using List.all_eq_true.1 h c hc

/-- No delimiter belongs to a class of characters. -/
def avoids (p : Char → Bool) : Bool := delimiters.all fun c => !p c

/-- A class that avoids the delimiters holds none of them. -/
theorem eq_false_of_avoids {p : Char → Bool} (hp : avoids p = true) {c : Char}
    (hc : c ∈ delimiters) : p c = false := by
  simpa using List.all_eq_true.1 hp c hc

/-- A text of a class that avoids the delimiters has none. -/
theorem bare_of_avoids {p : Char → Bool} (hp : avoids p = true) {s : List Char}
    (h : ∀ c ∈ s, p c = true) : Bare s := by
  intro c hc hmem
  have hfalse := eq_false_of_avoids hp hmem
  rw [h c hc] at hfalse
  cases hfalse

theorem avoids_isDigit : avoids Char.isDigit = true := by decide

theorem avoids_isHexDigit : avoids isHexDigit = true := by decide

section

variable {w : WideLetters} {s : List Char} {c : Char}

/-- A delimiter is an ASCII character or ends a line, so no wide letter is one. -/
theorem avoids_wide (w : WideLetters) : avoids (fun c => w.start c || w.part c) = true := by
  have hnarrow : delimiters.all (fun c => lineEnds.contains c || c.toNat < 128) = true := by decide
  refine List.all_eq_true.2 fun c hc => ?_
  show (!(w.start c || w.part c)) = true
  cases hletter : w.start c || w.part c with
  | false => rfl
  | true =>
      have hwide := w.wide c hletter
      have hinline := w.inline c hletter
      have hplace := List.all_eq_true.1 hnarrow c hc
      simp only [Bool.or_eq_true, List.contains_iff_mem, hinline, decide_eq_true_eq,
        false_or] at hplace
      omega

/-- No identifier starts with a delimiter. -/
theorem avoids_isStart (w : WideLetters) : avoids w.isStart = true := by
  have hnarrow : avoids (fun c => c.isAlpha || c == '_' || c == '$') = true := by decide
  refine List.all_eq_true.2 fun c hc => ?_
  have hascii := eq_false_of_avoids hnarrow hc
  have hwide := eq_false_of_avoids (avoids_wide w) hc
  rw [WideLetters.isStart, hascii, (Bool.or_eq_false_iff.1 hwide).1]
  rfl

/-- No identifier goes on with a delimiter. -/
theorem avoids_isPart (w : WideLetters) : avoids w.isPart = true := by
  have hnarrow : avoids (fun c => c.isAlphanum || c == '_' || c == '$') = true := by decide
  refine List.all_eq_true.2 fun c hc => ?_
  have hascii := eq_false_of_avoids hnarrow hc
  have hwide := eq_false_of_avoids (avoids_wide w) hc
  rw [WideLetters.isPart, hascii, (Bool.or_eq_false_iff.1 hwide).2]
  rfl

/-- The digits of a code point are no delimiters. -/
theorem CodePoint.bare {n : Nat} (h : CodePoint s n) : Bare s := by
  cases h with
  | fixed hlength hdigits => exact bare_of_avoids avoids_isHexDigit hdigits
  | braced hne hdigits hbound =>
      have hclose : Bare ['\x7d'] := .cons (by decide) nofun
      exact .cons (by decide) ((bare_of_avoids avoids_isHexDigit hdigits).append hclose)

/-- A letter of an identifier, escaped or not, holds no delimiter. -/
theorem Letter.bare {allowed : Char → Bool} (hallowed : avoids allowed = true)
    (h : Letter allowed s) : Bare s := by
  cases h with
  | plain hc =>
      refine bare_of_avoids hallowed fun d hd => ?_
      rwa [List.mem_singleton.1 hd]
  | escaped hdigits hn hc => exact .cons (by decide) (.cons (by decide) hdigits.bare)

/-- The rest of an identifier holds no delimiter. -/
theorem IdentifierRest.bare (h : IdentifierRest w s) : Bare s := by
  induction h with
  | nil => exact nofun
  | cons hletter _ ih => exact (hletter.bare (avoids_isPart w)).append ih

/-- An identifier holds no delimiter. -/
theorem Identifier.bare (h : Identifier w s) : Bare s := by
  cases h with
  | intro hletter hrest => exact (hletter.bare (avoids_isStart w)).append hrest.bare

/-- A row of digits holds no delimiter, nor do the separators in it. -/
theorem Digits.bare {digit : Char → Bool} (hdigit : avoids digit = true) (h : Digits digit s) :
    Bare s := by
  have hone : ∀ {c}, digit c = true → c ∉ delimiters := by
    intro c hc hmem
    rw [eq_false_of_avoids hdigit hmem] at hc
    cases hc
  induction h with
  | single hc => exact .cons (hone hc) nofun
  | cons hc _ ih => exact .cons (hone hc) ih
  | separated hc _ ih => exact .cons (hone hc) (.cons (by decide) ih)

/-- A whole number holds no delimiter. -/
theorem Whole.bare (h : Whole s) : Bare s := by
  cases h with
  | zero => exact .cons (by decide) nofun
  | positive h hzero => exact h.bare avoids_isDigit

/-- An exponent holds no delimiter. -/
theorem Exponent.bare (h : Exponent s) : Bare s := by
  have hletters : Bare ['e', 'E'] := bare_of_all (by decide)
  have hsigns : Bare ['+', '-'] := bare_of_all (by decide)
  cases h with
  | none => exact nofun
  | unsigned he h => exact .cons (hletters _ he) (h.bare avoids_isDigit)
  | signed he hsign h =>
      exact .cons (hletters _ he) (.cons (hsigns _ hsign) (h.bare avoids_isDigit))

/-- The mark of a radix is no delimiter, and its digits avoid them. -/
theorem Radix.bare {digit : Char → Bool} (h : Radix c digit) :
    c ∉ delimiters ∧ avoids digit = true := by
  have hbinary : Bare ['b', 'B'] := bare_of_all (by decide)
  have hoctal : Bare ['o', 'O'] := bare_of_all (by decide)
  have hhexadecimal : Bare ['x', 'X'] := bare_of_all (by decide)
  cases h with
  | binary hc => exact ⟨hbinary c hc, by decide⟩
  | octal hc => exact ⟨hoctal c hc, by decide⟩
  | hexadecimal hc => exact ⟨hhexadecimal c hc, avoids_isHexDigit⟩

/-- A numeral holds no delimiter. -/
theorem Numeral.bare (h : Numeral s) : Bare s := by
  have hpoint : '.' ∉ delimiters := by decide
  cases h with
  | whole hn he => exact hn.bare.append he.bare
  | pointed hn he => exact hn.bare.append (.cons hpoint he.bare)
  | fraction hn hf he =>
      have hfront : Bare _ := hn.elim (fun hnil => hnil ▸ nofun) Whole.bare
      exact hfront.append (.cons hpoint ((hf.bare avoids_isDigit).append he.bare))
  | radix hc h => exact .cons (by decide) (.cons hc.bare.1 (h.bare hc.bare.2))

/-! ## Strings stay on their line -/

theorem mem_delimiters_of_quotes (hc : c ∈ quotes) : c ∈ delimiters :=
  List.mem_cons_of_mem _ (List.mem_cons_of_mem _ (List.mem_append_left _ hc))

theorem mem_delimiters_of_lineEnds (hc : c ∈ lineEnds) : c ∈ delimiters :=
  List.mem_cons_of_mem _ (List.mem_cons_of_mem _ (List.mem_append_right _ hc))

/-- A text without delimiters stays on its line. -/
theorem Bare.inline (h : Bare s) : ∀ c ∈ s, c ∉ lineEnds :=
  fun c hc hline => h c hc (mem_delimiters_of_lineEnds hline)

/-- Only the first character of an escape can be a quote or a backslash. -/
theorem Escape.eq_cons (h : Escape s) :
    ∃ c tail, s = c :: tail ∧ c ∉ lineEnds ∧ Bare tail ∧ '\\' ∉ tail := by
  have hslash : ∀ {digits : List Char}, (∀ c ∈ digits, isHexDigit c = true) → '\\' ∉ digits := by
    intro digits hdigits hmem
    exact absurd (hdigits _ hmem) (by decide)
  cases h with
  | character hdigit hletter hline => exact ⟨_, [], rfl, hline, nofun, nofun⟩
  | @byte a b ha hb =>
      have hdigits : ∀ c ∈ [a, b], isHexDigit c = true := by simp [ha, hb]
      exact ⟨'x', _, rfl, by decide, bare_of_avoids avoids_isHexDigit hdigits, hslash hdigits⟩
  | codePoint h =>
      refine ⟨'u', _, rfl, by decide, h.bare, ?_⟩
      cases h with
      | fixed hlength hdigits => exact hslash hdigits
      | braced hne hdigits hbound =>
          have := hslash hdigits
          simpa using this

/-- The content of a string stays on its line. -/
theorem Content.inline {quote : Char} (h : Content quote s) : ∀ c ∈ s, c ∉ lineEnds := by
  induction h with
  | nil => exact nofun
  | plain _ _ hline _ ih =>
      intro c hc
      rcases List.mem_cons.1 hc with rfl | hc
      · exact hline
      · exact ih c hc
  | @escaped e s he _ ih =>
      obtain ⟨c, tail, rfl, hc, htail, -⟩ := he.eq_cons
      intro d hd
      rw [List.cons_append, List.mem_cons, List.mem_cons, List.mem_append] at hd
      rcases hd with rfl | rfl | hd | hd
      · decide
      · exact hc
      · exact htail.inline d hd
      · exact ih d hd
  | @null s _ _ ih =>
      intro d hd
      rw [List.mem_cons, List.mem_cons] at hd
      rcases hd with rfl | rfl | hd
      · decide
      · decide
      · exact ih d hd

/-- A property name stays on its line, of whichever kind it is. -/
theorem inline (h : PropertyName w s) : ∀ c ∈ s, c ∉ lineEnds := by
  cases h with
  | identifier h => exact h.bare.inline
  | numeral h => exact h.bare.inline
  | @string quote s hquote h =>
      have hquotes : quotes.all (fun c => !lineEnds.contains c) = true := by decide
      have hline : quote ∉ lineEnds := by simpa using List.all_eq_true.1 hquotes quote hquote
      intro c hc
      rw [List.mem_cons, List.mem_append, List.mem_singleton] at hc
      rcases hc with rfl | hc | rfl
      · exact hline
      · exact h.inline c hc
      · exact hline

/-- Letters that need no escape make an identifier. -/
theorem of_letters (hstart : w.isStart c = true) (hparts : s.all w.isPart = true) :
    PropertyName w (c :: s) := by
  have hrest : IdentifierRest w s := by
    induction s with
    | nil => exact .nil
    | cons d s ih =>
        rw [List.all_cons, Bool.and_eq_true] at hparts
        exact .cons (.plain hparts.1) (ih hparts.2)
  exact .identifier (.intro (.plain hstart) hrest)

/-- A name that is no string has no delimiter in it. -/
theorem bare_of_not_string (h : PropertyName w s) (hquote : ∀ c ∈ s.head?, c ∉ quotes) :
    Bare s := by
  cases h with
  | identifier h => exact h.bare
  | numeral h => exact h.bare
  | string hopen _ => exact absurd hopen (hquote _ rfl)

/-! ## Where a name ends -/

/-- A text before the first occurrence of a quote that no backslash takes along. -/
def untilQuote (quote : Char) : List Char → List Char
  | [] => []
  | '\\' :: c :: rest => '\\' :: c :: untilQuote quote rest
  | c :: rest => if c = quote then [] else c :: untilQuote quote rest

/-- The name at the front of a text: a string, or all as far as a colon. -/
def nameIn (text : List Char) : List Char :=
  match text with
  | [] => []
  | c :: rest =>
      if c ∈ quotes then c :: (untilQuote c rest ++ [c]) else text.takeWhile (· ≠ ':')

/-- A character other than the backslash is passed over, unless it is the quote. -/
theorem untilQuote_cons {quote : Char} (hc : c ≠ '\\') (rest : List Char) :
    untilQuote quote (c :: rest) = if c = quote then [] else c :: untilQuote quote rest := by
  rw [untilQuote.eq_def]
  split
  · next heq => cases heq
  · next heq =>
      cases heq
      exact absurd rfl hc
  · next heq =>
      cases heq
      rfl

/-- A text without delimiters and backslashes is passed over. -/
theorem untilQuote_bare {quote : Char} (hquote : quote ∈ delimiters) {t : List Char} (ht : Bare t)
    (hslash : '\\' ∉ t) (rest : List Char) :
    untilQuote quote (t ++ rest) = t ++ untilQuote quote rest := by
  induction t with
  | nil => rfl
  | cons c t ih =>
      have hc : c ≠ quote := by
        rintro rfl
        exact ht c List.mem_cons_self hquote
      have hne : c ≠ '\\' := by
        rintro rfl
        exact hslash List.mem_cons_self
      rw [List.cons_append, untilQuote_cons hne, if_neg hc,
        ih (fun d hd => ht d (List.mem_cons_of_mem _ hd)) fun hd =>
          hslash (List.mem_cons_of_mem _ hd)]
      rfl

/-- The content of a string ends at the quote that closes it. -/
theorem Content.untilQuote {quote : Char} (hquote : quote ∈ quotes) (h : Content quote s)
    (rest : List Char) : untilQuote quote (s ++ quote :: rest) = s := by
  have hslash : quote ≠ '\\' := by
    rintro rfl
    revert hquote
    decide
  have hdelimiter := mem_delimiters_of_quotes hquote
  -- A quote in the content stands after a backslash, so it is skipped together with it.
  induction h with
  | nil => rw [List.nil_append, untilQuote_cons hslash, if_pos rfl]
  | plain hne hplain _ _ ih => rw [List.cons_append, untilQuote_cons hplain, if_neg hne, ih]
  | @escaped e s he _ ih =>
      obtain ⟨c, tail, rfl, -, htail, hnone⟩ := he.eq_cons
      have hskip : PropertyName.untilQuote quote ('\\' :: c :: (tail ++ (s ++ quote :: rest))) =
          '\\' :: c :: PropertyName.untilQuote quote (tail ++ (s ++ quote :: rest)) := rfl
      simp only [List.cons_append, List.append_assoc]
      rw [hskip, untilQuote_bare hdelimiter htail hnone, ih]
  | @null s _ _ ih =>
      have hskip : PropertyName.untilQuote quote ('\\' :: '0' :: (s ++ quote :: rest)) =
          '\\' :: '0' :: PropertyName.untilQuote quote (s ++ quote :: rest) := rfl
      rw [List.cons_append, List.cons_append, hskip, ih]

/-- A name without delimiters ends at the colon after it. -/
theorem Bare.nameIn (h : Bare s) (rest : List Char) : nameIn (s ++ ':' :: rest) = s := by
  have hcolon : (s ++ ':' :: rest).takeWhile (· ≠ ':') = s := by
    rw [List.takeWhile_append_of_pos]
    · simp
    · intro c hc
      have hne : c ≠ ':' := by
        rintro rfl
        exact h _ hc List.mem_cons_self
      simpa using hne
  cases s with
  | nil => rfl
  | cons c s =>
      have hquote : c ∉ quotes := fun hc => h c List.mem_cons_self (mem_delimiters_of_quotes hc)
      rw [List.cons_append] at hcolon ⊢
      rw [PropertyName.nameIn, if_neg hquote, hcolon]

/-- A name is found at the front of any text in which a colon follows it. -/
theorem nameIn_append (h : PropertyName w s) (rest : List Char) :
    nameIn (s ++ ':' :: rest) = s := by
  cases h with
  | identifier h => exact h.bare.nameIn rest
  | numeral h => exact h.bare.nameIn rest
  | @string quote s hquote h =>
      have hcontent := h.untilQuote hquote (':' :: rest)
      rw [List.cons_append, List.append_assoc, List.singleton_append, nameIn, if_pos hquote,
        hcontent]

end

end PropertyName

end TypedSql
