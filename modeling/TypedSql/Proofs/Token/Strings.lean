import Mathlib.Data.List.Infix
import TypedSql.Proofs.Token.Agree
import TypedSql.Proofs.Token.Written

namespace TypedSql.Lexer

/-! # Strings and delimited names that are written out again

For every reader of a delimited text: the room it takes off the text (`…_weight_le`), when its token
is read back (`…_reread`), and that only an intact content is read back (`…_intact`).
-/

/-! ## Quotes -/

/-- The quotes that open strings. -/
def IsQuote (quote : Char) : Prop := quote = '\x27' ∨ quote = '\x22'

namespace IsQuote

variable {quote : Char}

/-- The single quote is a quote of strings. -/
theorem single : IsQuote '\x27' := .inl rfl

/-- The double quote is a quote of strings. -/
theorem double : IsQuote '\x22' := .inr rfl

/-- A quote is no letter. -/
theorem ne_x (h : IsQuote quote) : quote ≠ 'x' := by
  rcases h with rfl | rfl <;> decide

/-- A quote is no backslash. -/
theorem ne_backslash (h : IsQuote quote) : quote ≠ '\\' := by
  rcases h with rfl | rfl <;> decide

/-- A plain quote is written once. -/
theorem plainQuote_text (h : IsQuote quote) : (plainQuote quote).text.toList = [quote] := by
  rcases h with rfl | rfl <;> rfl

/-- A tripled quote is written three times. -/
theorem tripleQuote_text (h : IsQuote quote) :
    (tripleQuote quote).text.toList = [quote, quote, quote] := by
  rcases h with rfl | rfl <;> rfl

theorem not_mem_newHeads (h : IsQuote quote) : quote ∉ newHeads := by
  rcases h with rfl | rfl <;> decide

end IsQuote

section

variable {d : Dialect} {quote : Char} {content : List Char}

/-- A string between plain quotes is intact when nothing in it would have to be written in another
way. -/
theorem intact_plain_iff (mark : StringMark) (hq : IsQuote quote) :
    (Token.string mark (plainQuote quote) (String.ofList content)).Intact d ↔
      ∀ c ∈ content, special quote (mark.escapes d) c = false := by
  simp only [Token.Intact, hq.plainQuote_text, String.toList_ofList, List.tail_cons,
    List.append_nil, List.singleton_infix_iff, special, Bool.or_eq_false_iff, beq_eq_false_iff_ne]
  constructor
  · rintro ⟨hesc, hmem⟩ c hc
    refine ⟨?_, hesc c hc⟩
    rintro rfl
    exact hmem hc
  · intro h
    exact ⟨fun c hc => (h c hc).2, fun hmem => (h quote hmem).1 rfl⟩

/-- A string between tripled quotes is intact when it opens no escape and holds no three quotes in a
row. -/
theorem intact_triple_iff (mark : StringMark) (hq : IsQuote quote) :
    (Token.string mark (tripleQuote quote) (String.ofList content)).Intact d ↔
      (∀ c ∈ content, opensEscape (mark.escapes d) c = false) ∧
        ¬ [quote, quote, quote] <:+: content ++ [quote, quote] := by
  simp only [Token.Intact, hq.tripleQuote_text, String.toList_ofList, List.tail_cons]

end

/-! ## Strings between single, double or tripled quotes -/

/-- How a string is read whose opening quote is followed by a text. Two more quotes open a tripled
one where `triple` holds. -/
inductive StringRead (triple : Bool) (mark : StringMark) (escapes : Bool) (quote : Char) :
    List Char → Token → List Char → Prop
  | plain {rest content left : List Char}
      (hopen : triple = true → ∀ after, rest ≠ quote :: quote :: after)
      (h : stringContent quote escapes rest = some (content, left)) :
      StringRead triple mark escapes quote rest
        (.string mark (plainQuote quote) (String.ofList content)) left
  | tripled {after content left : List Char} (htriple : triple = true)
      (h : tripleContent quote escapes 0 [] after = some (content, left)) :
      StringRead triple mark escapes quote (quote :: quote :: after)
        (.string mark (tripleQuote quote) (String.ofList content)) left

section

variable {triple escapes : Bool} {mark : StringMark} {quote : Char} {rest left after : List Char}
  {t : Token}

/-- A token that is made of a content is the result of reading the content. -/
theorem ok_eq_ok_iff (make : List Char → Token) {content left' : List Char} :
    (Except.ok (make content, left') : Scan) = .ok (t, left) ↔
      ∃ content', some (content, left') = some (content', left) ∧ t = make content' := by
  constructor
  · intro h
    cases h
    exact ⟨content, rfl, rfl⟩
  · rintro ⟨content', h, rfl⟩
    cases h
    rfl

/-- A string is read when a content is found up to its quote. -/
theorem stringOrFault_eq_ok {blamed : List Char} :
    stringOrFault mark escapes quote blamed rest = .ok (t, left) ↔
      ∃ content, stringContent quote escapes rest = some (content, left) ∧
        t = .string mark (plainQuote quote) (String.ofList content) := by
  unfold stringOrFault
  split
  · next content left' h =>
      rw [h]
      exact ok_eq_ok_iff fun content => .string mark (plainQuote quote) (.ofList content)
  · next h => simp [h]

/-- Where no three quotes open it, a string is read between plain quotes. -/
theorem stringRead_plain_iff (hopen : triple = true → ∀ after, rest ≠ quote :: quote :: after) :
    StringRead triple mark escapes quote rest t left ↔
      ∃ content, stringContent quote escapes rest = some (content, left) ∧
        t = .string mark (plainQuote quote) (String.ofList content) := by
  constructor
  · intro h
    cases h with
    | plain _ h => exact ⟨_, h, rfl⟩
    | tripled htriple _ => exact absurd rfl (hopen htriple _)
  · rintro ⟨content, h, rfl⟩
    exact .plain hopen h

/-- Where three quotes open it, a string is read between tripled quotes. -/
theorem stringRead_tripled_iff {inner : List Char} :
    StringRead true mark escapes quote (quote :: quote :: inner) t left ↔
      ∃ content, tripleContent quote escapes 0 [] inner = some (content, left) ∧
        t = .string mark (tripleQuote quote) (String.ofList content) := by
  constructor
  · intro h
    cases h with
    | plain hopen _ => exact absurd rfl (hopen rfl inner)
    | tripled _ h => exact ⟨_, h, rfl⟩
  · rintro ⟨content, h, rfl⟩
    exact .tripled rfl h

/-- Strings that may have tripled quotes are read as they come. -/
theorem tripleableString_eq_ok :
    tripleableString mark escapes quote rest = .ok (t, left) ↔
      StringRead true mark escapes quote rest t left := by
  have plain := fun content left' => @ok_eq_ok_iff left t
    (fun content => .string mark (plainQuote quote) (.ofList content)) content left'
  -- One quote after the opening one makes the empty string, two more a tripled one.
  rcases rest with _ | ⟨second, rest⟩
  · rw [stringRead_plain_iff (by simp)]
    simp [tripleableString, stringContent]
  by_cases hsecond : second = quote
  · subst hsecond
    rcases rest with _ | ⟨third, rest⟩
    · rw [stringRead_plain_iff (by simp), tripleableString, if_pos rfl, stringContent, if_pos rfl]
      exact plain [] []
    by_cases hthird : third = second
    · subst hthird
      rw [stringRead_tripled_iff, tripleableString, if_pos rfl]
      simp only [if_pos]
      split
      · next content left' h =>
          rw [h]
          exact ok_eq_ok_iff
            fun content => .string mark (tripleQuote third) (.ofList content)
      · next h => simp [h]
    · rw [stringRead_plain_iff (by simp [hthird]), tripleableString, if_pos rfl]
      simp only [if_neg hthird, stringContent, if_pos]
      exact plain [] (third :: rest)
  · rw [stringRead_plain_iff (by simp [hsecond]), tripleableString.eq_def]
    simp only [if_neg hsecond]
    exact stringOrFault_eq_ok

/-- Strings that may not have tripled quotes are read as they come. -/
theorem plainString_eq_ok :
    plainString mark escapes quote rest = .ok (t, left) ↔
      StringRead false mark escapes quote rest t left := by
  rw [stringRead_plain_iff (by simp), plainString, stringOrFault_eq_ok]

/-- Strings are read as they come, whether they may have tripled quotes or not. -/
theorem stringIn_eq_ok :
    stringIn triple mark escapes quote rest = .ok (t, left) ↔
      StringRead triple mark escapes quote rest t left := by
  cases triple with
  | false => exact plainString_eq_ok
  | true => exact tripleableString_eq_ok

namespace StringRead

/-- A string is written in no more room than it was read from. -/
theorem weight_le (hq : IsQuote quote) (h : StringRead triple mark escapes quote rest t left) :
    ∃ u, rest = u ++ left ∧
      weight t.chars ≤ weight mark.text.toList + charWeight quote + weight u := by
  have hone : charWeight quote = 1 := by simp [charWeight, hq.ne_x]
  cases h with
  | plain _ h =>
      rcases stringContent_taken hq.ne_x h with ⟨u, rfl, hu⟩
      refine ⟨u, rfl, ?_⟩
      simp [hq.plainQuote_text, hone]
      omega
  | tripled _ h =>
      rcases tripleContent_taken hq.ne_backslash h with ⟨u, rfl, hu⟩
      refine ⟨quote :: quote :: u, rfl, ?_⟩
      simp [hq.tripleQuote_text, hone]
      omega

/-- An intact string is read back. -/
theorem reread {d : Dialect} (hq : IsQuote quote) (he : mark.escapes d = escapes)
    (h : StringRead triple mark escapes quote rest t left) (hi : t.Intact d)
    (hr : Agree left after) :
    ∃ u, t.chars = mark.text.toList ++ quote :: u ∧
      StringRead triple mark escapes quote (u ++ after) t after := by
  subst he
  cases h with
  | @plain _ content _ _ h =>
      have hs := (intact_plain_iff mark hq).1 hi
      have hafter : after.head? ≠ some quote :=
        hr.head?_ne hq.not_mem_newHeads (stringContent_left h)
      refine ⟨content ++ [quote], by simp [hq.plainQuote_text], .plain ?_ ?_⟩
      · -- Two quotes in front would be the closing one and one after it.
        intro _ inner heq
        cases content with
        | nil => simp_all
        | cons c content =>
            have hc := hs c (by simp)
            simp [special] at hc
            simp_all
      · simpa using stringContent_of_not_special hs hafter
  | @tripled _ content _ htriple h =>
      rcases (intact_triple_iff mark hq).1 hi with ⟨hesc, hin⟩
      refine ⟨quote :: quote :: (content ++ [quote, quote, quote]),
        by simp [hq.tripleQuote_text], ?_⟩
      have hread : tripleContent quote (mark.escapes d) 0 []
          (content ++ quote :: quote :: quote :: after) = some (content, after) :=
        tripleContent_of_not_infix hesc hin
      simpa using StringRead.tripled htriple hread

/-- Only an intact string is read back. -/
theorem intact {d : Dialect} {u : List Char} (hq : IsQuote quote) (he : mark.escapes d = escapes)
    (hu : t.chars = mark.text.toList ++ quote :: u)
    (h : StringRead triple mark escapes quote (u ++ left) t left) : t.Intact d := by
  subst he
  generalize hrest : u ++ left = rest at h
  cases h with
  | @plain _ content _ _ h =>
      have hcontent : u = content ++ [quote] := by simpa [hq.plainQuote_text] using hu.symm
      subst hcontent
      rw [← hrest, List.append_assoc] at h
      exact (intact_plain_iff mark hq).2 (not_special_of_stringContent hq.ne_x h)
  | @tripled inner content _ _ h =>
      have hcontent : u = quote :: quote :: (content ++ [quote, quote, quote]) := by
        simpa [hq.tripleQuote_text] using hu.symm
      subst hcontent
      have hinner : inner = content ++ quote :: quote :: quote :: left := by
        simpa using hrest.symm
      subst hinner
      exact (intact_triple_iff mark hq).2
        ⟨not_opensEscape_of_tripleContent hq.ne_backslash hq.ne_x h,
          not_infix_of_tripleContent hq.ne_backslash hq.ne_x h⟩

end StringRead

end

/-! ## Delimited names -/

/-- The characters that open a delimited name in some dialect. -/
def nameQuotes : List Char := ['\x22', '\x60', '[']

section

variable {d : Dialect} {quote : Char} {rest left after : List Char} {t : Token}

/-- A name in quotes is read when a content is found up to the quote that closes it. -/
theorem quotedName_eq_ok :
    quotedName quote rest = .ok (t, left) ↔
      ∃ content, stringContent (Word.closing quote) false rest = some (content, left) ∧
        t = .word ⟨String.ofList content, some quote⟩ := by
  rw [quotedName, delimited_eq_stringContent]
  split
  · next content left' h =>
      rw [h]
      exact ok_eq_ok_iff fun content => .word ⟨.ofList content, some quote⟩
  · next h => simp [h]

/-- Every dialect quotes names with one of the known quotes. -/
theorem isNameQuote_mem (hq : d.isNameQuote quote = true) : quote ∈ nameQuotes := by
  cases d <;> simp only [Dialect.isNameQuote, Bool.or_eq_true, beq_iff_eq] at hq <;>
    simp only [nameQuotes, List.mem_cons, List.not_mem_nil, or_false] <;> grind

/-- No name is closed by a letter. -/
theorem closing_ne_x (hq : d.isNameQuote quote = true) : Word.closing quote ≠ 'x' := by
  have hclosing : ∀ q ∈ nameQuotes, Word.closing q ≠ 'x' :=
    List.all_iff_forall_prop.1 (by decide)
  exact hclosing quote (isNameQuote_mem hq)

theorem closing_not_mem_newHeads (hq : d.isNameQuote quote = true) :
    Word.closing quote ∉ newHeads := by
  have hclosing : ∀ q ∈ nameQuotes, Word.closing q ∉ newHeads :=
    List.all_iff_forall_prop.1 (by decide)
  exact hclosing quote (isNameQuote_mem hq)

/-- A name in quotes is intact when nothing in it would have to be written in another way. -/
theorem intact_name_iff {content : List Char} :
    (Token.word ⟨String.ofList content, some quote⟩).Intact d ↔
      ∀ c ∈ content, special (Word.closing quote) false c = false := by
  simp only [Token.Intact, String.toList_ofList, special, opensEscape, Bool.and_false,
    Bool.or_false, beq_eq_false_iff_ne]
  constructor
  · rintro hmem c hc rfl
    exact hmem hc
  · intro h hmem
    exact h _ hmem rfl

/-- A name in quotes is written in no more room than it was read from. -/
theorem quotedName_weight_le (hq : d.isNameQuote quote = true)
    (h : quotedName quote rest = .ok (t, left)) :
    ∃ u, rest = u ++ left ∧ weight t.chars ≤ charWeight quote + weight u := by
  rcases quotedName_eq_ok.1 h with ⟨content, hcontent, rfl⟩
  rcases stringContent_taken (closing_ne_x hq) hcontent with ⟨u, rfl, hu⟩
  refine ⟨u, rfl, ?_⟩
  have hone : charWeight (Word.closing quote) = 1 := by simp [charWeight, closing_ne_x hq]
  simp [hone]
  omega

/-- An intact name is read back. -/
theorem quotedName_reread (hq : d.isNameQuote quote = true)
    (h : quotedName quote rest = .ok (t, left)) (hi : t.Intact d) (hr : Agree left after) :
    ∃ u, t.chars = quote :: u ∧ quotedName quote (u ++ after) = .ok (t, after) := by
  rcases quotedName_eq_ok.1 h with ⟨content, hcontent, rfl⟩
  have hafter : after.head? ≠ some (Word.closing quote) :=
    hr.head?_ne (closing_not_mem_newHeads hq) (stringContent_left hcontent)
  refine ⟨content ++ [Word.closing quote], by simp, quotedName_eq_ok.2 ⟨content, ?_, rfl⟩⟩
  simpa using stringContent_of_not_special (intact_name_iff.1 hi) hafter

/-- Only an intact name is read back. -/
theorem quotedName_intact {u : List Char} (hq : d.isNameQuote quote = true)
    (hu : t.chars = quote :: u) (h : quotedName quote (u ++ left) = .ok (t, left)) :
    t.Intact d := by
  rcases quotedName_eq_ok.1 h with ⟨content, hcontent, rfl⟩
  have hcu : u = content ++ [Word.closing quote] := by simpa using hu.symm
  subst hcu
  rw [List.append_assoc] at hcontent
  exact intact_name_iff.2 (not_special_of_stringContent (closing_ne_x hq) hcontent)

end

end TypedSql.Lexer
