import TypedSql.Json.Reader
import TypedSql.Proofs.Reading

namespace TypedSql.Json

open Reader Reading

/-! # Written parts are read again

What the readers of blanks, strings, lists and objects give on a text that was written. Each
statement holds in front of any rest of the text, so that the readings of the parts can be put
together.
-/

section

variable {cs gap : List Char} {c : Char}

/-! ## Single characters -/

/-- Looking at the next character reads nothing. -/
@[simp] theorem run_peek (cs : List Char) : peek.run cs = .ok (cs.head?, cs) := rfl

/-- One character is taken from the front. -/
@[simp] theorem run_drop (c : Char) (cs : List Char) : drop.run (c :: cs) = .ok ((), cs) := rfl

/-! ## Blanks -/

/-- Blanks and nothing else. -/
def Gap (gap : List Char) : Prop := ∀ c ∈ gap, isBlank c = true

theorem gap_nil : Gap [] := by simp [Gap]

/-- A line break with its indentation is a gap. -/
theorem gap_lineBreak (layout : Layout) (depth : Nat) : Gap (layout.lineBreak depth) := by
  cases layout with
  | compact => exact gap_nil
  | indented =>
      intro c hc
      rcases List.mem_cons.1 hc with rfl | hc
      · rfl
      · rw [List.eq_of_mem_replicate hc]
        rfl

/-- A gap before the next part is passed over. -/
theorem run_peekToken (hgap : Gap gap) (hc : isBlank c = false) :
    peekToken.run (gap ++ c :: cs) = .ok (some c, c :: cs) := by
  have hskip : skipBlanks.run (gap ++ c :: cs) = .ok ((), c :: cs) := by
    have hdrop : (gap ++ c :: cs).dropWhile isBlank = c :: cs := by
      rw [List.dropWhile_append_of_pos hgap, List.dropWhile_cons_of_neg (by simp [hc])]
    exact congrArg (fun left => Except.ok ((), left)) hdrop
  exact run_bind_of_ok hskip

theorem run_peekToken_cons (hc : isBlank c = false) :
    peekToken.run (c :: cs) = .ok (some c, c :: cs) :=
  run_peekToken gap_nil hc

/-- A gap before a value is passed over. -/
theorem run_peekValue (hgap : Gap gap) (hc : isBlank c = false) :
    peekValue.run (gap ++ c :: cs) = .ok (c, c :: cs) :=
  run_bind_of_ok (run_peekToken hgap hc)

theorem run_peekValue_cons (hc : isBlank c = false) : peekValue.run (c :: cs) = .ok (c, c :: cs) :=
  run_peekValue gap_nil hc

/-- A colon is read where it stands. -/
theorem run_colon (cs : List Char) : colon.run (':' :: cs) = .ok ((), cs) :=
  run_bind_of_ok (run_peekToken_cons rfl)

/-- A layout writes a colon with a gap after it. -/
theorem exists_colon (layout : Layout) : ∃ gap, Gap gap ∧ layout.colon = ':' :: gap := by
  cases layout with
  | compact => exact ⟨[], gap_nil, rfl⟩
  | indented => exact ⟨[' '], by simp [Gap, isBlank], rfl⟩

/-! ## Words -/

/-- A word is read where it stands. -/
theorem run_word (expected cs : List Char) :
    (word expected).run (expected ++ cs) = .ok ((), cs) := by
  induction expected with
  | nil => rfl
  | cons c more ih =>
      have hpeek : peek.run (c :: more ++ cs) = .ok (some c, c :: more ++ cs) := rfl
      rw [word, run_bind_of_ok hpeek]
      simp only [if_true]
      exact (run_bind_of_ok (run_drop _ _)).trans ih

end

/-! ## Strings -/

section

variable {c : Char} {cs rest : List Char}

/-- The four digits of a control character are read as its number. -/
theorem hexValue4?_hexDigit : ∀ n, n < 0x20 →
    hexValue4? '0' '0' (hexDigit (n / 16)) (hexDigit (n % 16)) = some n := by
  decide

/-- A control character is read from its escape. -/
theorem stringRest_control (h : c.toNat < 0x20) :
    stringRest (['\\', 'u', '0', '0', hexDigit (c.toNat / 16), hexDigit (c.toNat % 16)] ++ cs) =
      consChar c (stringRest cs) := by
  have htrailing : isTrailing c.toNat = false := by
    simp [isTrailing]
    omega
  have hleading : isLeading c.toNat = false := by
    simp [isLeading]
    omega
  simp only [List.cons_append, List.nil_append]
  rw [stringRest]
  simp [hexValue4?_hexDigit _ h, htrailing, hleading]

/-- A character that needs no escape is read as it stands. -/
theorem stringRest_plain (hquote : c ≠ '\x22') (hbackslash : c ≠ '\\') (h : ¬ c.toNat < 0x20) :
    stringRest (c :: cs) = consChar c (stringRest cs) := by
  rw [stringRest]
  · rw [if_neg h]
  all_goals simp_all

/-- Every character is read from the way it is written in a string. -/
theorem stringRest_escapeChar (c : Char) (cs : List Char) :
    stringRest (escapeChar c ++ cs) = consChar c (stringRest cs) := by
  unfold escapeChar
  split
  all_goals try rfl
  next hquote hbackslash _ _ _ _ _ =>
    split
    · next h => exact stringRest_control h
    · next h => exact stringRest_plain hquote hbackslash h

/-- The characters of a string are read up to the quote that closes it. -/
theorem stringRest_escaped (s rest : List Char) :
    stringRest (s.flatMap escapeChar ++ '\x22' :: rest) = .ok (s, rest) := by
  induction s with
  | nil => rfl
  | cons c s ih =>
      rw [List.flatMap_cons, List.append_assoc, stringRest_escapeChar, ih]
      rfl

/-- A string is read back from the way it is written. -/
theorem run_string (s : String) (rest : List Char) :
    string.run (writeText s ++ rest) = .ok (s, rest) := by
  have hrest : writeText s ++ rest = '\x22' :: (s.toList.flatMap escapeChar ++ '\x22' :: rest) := by
    simp [writeText]
  rw [hrest, string, run_bind_of_ok (run_drop _ _)]
  show (stringRest (s.toList.flatMap escapeChar ++ '\x22' :: rest)).map _ = _
  rw [stringRest_escaped]
  simp [Except.map]

end

/-! ## The start and the end of a value -/

/-- What follows a value and is no part of it, should the value be a number. -/
def Ends (rest : List Char) : Prop :=
  ∀ c ∈ rest.head?, c.isDigit = false ∧ c ≠ '.' ∧ c ≠ 'e' ∧ c ≠ 'E'

/-- Values end at the end of the text. -/
theorem ends_nil : Ends [] := by simp [Ends]

/-- Values end in front of a comma, of a closing mark or of a line end. -/
theorem ends_cons {c : Char} (h : c ∈ [',', ']', '\x7d', '\n']) (rest : List Char) :
    Ends (c :: rest) := by
  intro d hd
  cases hd
  simp only [List.mem_cons, List.not_mem_nil, or_false] at h
  rcases h with rfl | rfl | rfl | rfl <;> decide

/-- Values end in front of a line break. -/
theorem ends_lineBreak (layout : Layout) (depth : Nat) {rest : List Char} (h : Ends rest) :
    Ends (layout.lineBreak depth ++ rest) := by
  cases layout with
  | compact => exact h
  | indented => exact ends_cons (by simp) _

/-- Decimals are read, but they are never written. -/
def isDecimal : Json → Bool
  | .decimal _ => true
  | _ => false

/-- What a value starts with: neither a blank nor the end of a list, and only null as null does. -/
structure Opening (json : Json) (c : Char) : Prop where
  notBlank : isBlank c = false
  notEnd : c ≠ ']'
  notNull : json ≠ .null → c ≠ 'n'

/-- A digit is no blank. -/
theorem isBlank_of_isDigit {c : Char} (h : c.isDigit = true) : isBlank c = false := by
  have hdigit : ∀ d : Char, d.isDigit = false → c ≠ d := by
    rintro d hd rfl
    rw [h] at hd
    cases hd
  simp [isBlank, hdigit ' ' rfl, hdigit '\n' rfl, hdigit '\t' rfl, hdigit '\r' rfl]

/-- A value that starts with a digit is a number. -/
theorem opening_of_isDigit {json : Json} {c : Char} (h : c.isDigit = true) : Opening json c := by
  refine ⟨isBlank_of_isDigit h, ?_, fun _ => ?_⟩
  · rintro rfl
    cases h
  · rintro rfl
    cases h

/-- A natural number is written with at least one digit. -/
theorem exists_toDigits (n : Nat) : ∃ c rest, Nat.toDigits 10 n = c :: rest ∧ c.isDigit = true := by
  obtain ⟨c, rest, hdigits⟩ := List.exists_cons_of_ne_nil (Nat.toDigits_ne_nil (b := 10) (n := n))
  have hmem : c ∈ Nat.toDigits 10 n := by
    rw [hdigits]
    exact List.mem_cons_self
  exact ⟨c, rest, hdigits, Nat.isDigit_of_mem_toDigits (by decide) (by decide) hmem⟩

/-- A natural number is written in base ten, without a sign. -/
theorem writeInteger_natural (n : Nat) : writeInteger n = Nat.toDigits 10 n := Nat.toList_repr

/-- A natural number is written from a digit on. -/
theorem exists_writeInteger_natural (n : Nat) :
    ∃ c rest, writeInteger n = c :: rest ∧ c.isDigit = true := by
  rw [writeInteger_natural]
  exact exists_toDigits n

/-- An integer starts with a digit or a sign. -/
theorem exists_writeInteger (n : Int) :
    ∃ c rest, writeInteger n = c :: rest ∧ Opening (.integer n) c := by
  cases n with
  | ofNat n =>
      obtain ⟨c, rest, hwrite, hdigit⟩ := exists_writeInteger_natural n
      exact ⟨c, rest, hwrite, opening_of_isDigit hdigit⟩
  | negSucc n =>
      refine ⟨'-', (Nat.repr (n + 1)).toList, ?_, rfl, by decide, fun _ => by decide⟩
      show ("-" ++ Nat.repr (n + 1)).toList = _
      rw [String.toList_append]
      rfl

/-- Every value starts with a character that tells its kind. -/
theorem exists_write (layout : Layout) (depth : Nat) {json : Json} (h : json.isDecimal = false) :
    ∃ c rest, write layout depth json = c :: rest ∧ Opening json c := by
  cases json with
  | null => exact ⟨_, _, rfl, rfl, by decide, fun hnull => absurd rfl hnull⟩
  | flag value =>
      cases value with
      | false => exact ⟨_, _, rfl, rfl, by decide, fun _ => by decide⟩
      | true => exact ⟨_, _, rfl, rfl, by decide, fun _ => by decide⟩
  | integer n => exact exists_writeInteger n
  | decimal shown => cases h
  | text s => exact ⟨_, _, rfl, rfl, by decide, fun _ => by decide⟩
  | list items =>
      cases items with
      | nil => exact ⟨_, _, rfl, rfl, by decide, fun _ => by decide⟩
      | cons item items => exact ⟨_, _, rfl, rfl, by decide, fun _ => by decide⟩
  | object entries =>
      cases entries with
      | nil => exact ⟨_, _, rfl, rfl, by decide, fun _ => by decide⟩
      | cons entry entries => exact ⟨_, _, rfl, rfl, by decide, fun _ => by decide⟩

end TypedSql.Json
