import TypedSql.Proofs.Toml.Reading
import TypedSql.Toml.Printer

namespace TypedSql.Toml

open Reader Reading

/-! # Written strings are read again

A text is written in one of four forms, and each of their readers gives it back. What is hard is
that a reader takes characters that stand for themselves in one piece as long as possible, and that
between threefold quotes one or two quotes stand for themselves as well.
-/

/-! ## Contents read piece by piece -/

/-- The pieces that a reader reads make up `content`, and the reader declines in front of `last`. -/
def Reads (r : Reader (List Char)) (cs content last : List Char) : Prop :=
  ∃ pieces, Pieces r cs pieces last ∧ pieces.flatten = content

section

variable {r : Reader (List Char)} {cs content rest last : List Char} {c : Char}

/-- A content ends where its reader declines. -/
theorem Reads.stop (h : Declines r last) : Reads r last [] last := ⟨[], .stop h, rfl⟩

/-- A content goes on after a piece that its reader gives. -/
theorem Reads.step {piece : List Char} (h : r.run cs = .ok (piece, rest))
    (hlt : rest.length < cs.length) (more : Reads r rest content last) :
    Reads r cs (piece ++ content) last := by
  obtain ⟨pieces, hpieces, rfl⟩ := more
  exact ⟨piece :: pieces, .step h hlt hpieces, rfl⟩

/-- A reader that contributes a content does not decline. -/
theorem Reads.exists_run (h : Reads r cs (c :: content) last) :
    ∃ piece rest, r.run cs = .ok (piece, rest) := by
  obtain ⟨pieces, hpieces, hflatten⟩ := h
  cases hpieces with
  | stop => cases hflatten
  | step h _ _ => exact ⟨_, _, h⟩

/-- A character that stands for itself joins the piece behind it if that is of its kind. -/
theorem Reads.cons_itself {p : Char → Bool} {other : Reader (List Char)} (hc : p c = true)
    (h : Reads (orTry (oneOrMore p) other) cs content last) :
    Reads (orTry (oneOrMore p) other) (c :: cs) (c :: content) last := by
  have hrun : (orTry (oneOrMore p) other).run (c :: cs) =
      .ok (c :: cs.takeWhile p, cs.dropWhile p) :=
    run_orTry_left (by rw [oneOrMore_run, List.takeWhile_cons_of_pos hc,
      List.dropWhile_cons_of_pos hc])
  -- If the piece behind `c` is not of its kind, `c` is a piece of its own; else the two are one.
  cases htake : cs.takeWhile p with
  | nil =>
      have hdrop : cs.dropWhile p = cs := by
        simpa [htake] using List.takeWhile_append_dropWhile (p := p) (l := cs)
      rw [htake, hdrop] at hrun
      exact .step hrun (by simp) h
  | cons d taken =>
      have htaken : (orTry (oneOrMore p) other).run cs = .ok (d :: taken, cs.dropWhile p) :=
        run_orTry_left (by rw [oneOrMore_run, htake])
      obtain ⟨pieces, hpieces, rfl⟩ := h
      cases hpieces with
      | stop h =>
          obtain ⟨fault, hfault, _⟩ := h
          cases htaken.symm.trans hfault
      | step h hlt more =>
          cases htaken.symm.trans h
          rw [htake] at hrun
          exact ⟨_, .step hrun (by simp only [List.length_cons]; omega) more, rfl⟩

end

/-- In front of whatever a reader reads, `unit` adds the character `c` and is not taken for a
quote. -/
structure Adds (quote : Char) (r : Reader (List Char)) (unit : List Char) (c : Char) : Prop where
  head_ne : ∃ d more, unit = d :: more ∧ d ≠ quote
  reads : ∀ {cs content last}, Reads r cs content last → Reads r (unit ++ cs) (c :: content) last

/-! ## Characters and their escapes -/

section

variable {c : Char} {cs rest : List Char}

/-- Digits of base sixteen are read as they stand. -/
theorem run_hexDigits {digits : List Char} (h : ∀ d ∈ digits, isHexDigit d = true)
    (rest : List Char) :
    (hexDigits digits.length).run (digits ++ rest) = .ok (digits, rest) := by
  have hself : (digits ++ []).takeWhile isHexDigit = digits ++ [].takeWhile isHexDigit :=
    List.takeWhile_append_of_pos h
  have htake : ((digits ++ rest).take digits.length).takeWhile isHexDigit = digits := by
    rw [List.take_left]
    simpa using hself
  show (if (((digits ++ rest).take digits.length).takeWhile isHexDigit).length = digits.length
    then Except.ok (((digits ++ rest).take digits.length).takeWhile isHexDigit,
      (digits ++ rest).drop digits.length)
    else .error (Fault.bare (digits ++ rest))) = .ok (digits, rest)
  rw [htake, if_pos rfl, List.drop_left]

/-- The digit of a number below sixteen is one of base sixteen. -/
theorem isHexDigit_hexDigit : ∀ n < 16, isHexDigit (hexDigit n) = true := by
  decide

/-- The digit of a number below sixteen has this value. -/
theorem digitValue_hexDigit : ∀ n < 16, digitValue (hexDigit n) = n := by
  decide

/-- A character of seven bits is read from its code point. -/
theorem run_escaped_unicode (h : c.toNat < 0x80) (rest : List Char) :
    escaped.run ('u' :: '0' :: '0' :: hexDigit (c.toNat / 16) :: hexDigit (c.toNat % 16) :: rest) =
      .ok (c, rest) := by
  have hhigh : c.toNat / 16 < 16 := by omega
  have hlow : c.toNat % 16 < 16 := by omega
  have hdigits : ∀ d ∈ ['0', '0', hexDigit (c.toNat / 16), hexDigit (c.toNat % 16)],
      isHexDigit d = true := by
    have hzero : isHexDigit '0' = true := rfl
    simp [hzero, isHexDigit_hexDigit _ hhigh, isHexDigit_hexDigit _ hlow]
  have hnumber : numberOf 16 ['0', '0', hexDigit (c.toNat / 16), hexDigit (c.toNat % 16)] =
      c.toNat := by
    simp only [numberOf, List.foldl_cons, List.foldl_nil, digitValue_hexDigit _ hhigh,
      digitValue_hexDigit _ hlow, show digitValue '0' = 0 from rfl]
    omega
  refine run_labelled (run_commit (run_checked (run_hexDigits hdigits rest) ?_))
  have hvalid : c.toNat.isValidChar := c.valid
  dsimp only
  rw [hnumber, if_pos hvalid, Char.ofNat_toNat]

/-- What a character is written as after a backslash. -/
structure Escape (c : Char) (e : List Char) : Prop where
  read : ∀ rest, escaped.run (e ++ rest) = .ok (c, rest)
  /-- It is not taken for a backslash at the end of a line. -/
  head : ∃ d more, e = d :: more ∧ isBlank d = false ∧ d ≠ '\n' ∧ d ≠ '\r'

/-- How a character other than a raw quote is written between double quotes. -/
inductive Spelled (severalLines : Bool) : Char → List Char → Prop
  | itself {c : Char} (h : isBasicChar c = true) : Spelled severalLines c [c]
  | lineEnd (h : severalLines = true) : Spelled severalLines '\n' ['\n']
  | escape {c : Char} {e : List Char} (h : Escape c e) : Spelled severalLines c ('\\' :: e)

/-- A short escape is read as the character that the table gives for it. -/
theorem escape_of_lookup {d : Char} (h : escapes.lookup d = some c) (hu : d ≠ 'u') (hU : d ≠ 'U')
    (hblank : isBlank d = false) (hnewline : d ≠ '\n') (hreturn : d ≠ '\r') : Escape c [d] := by
  refine ⟨fun rest => ?_, d, [], rfl, hblank, hnewline, hreturn⟩
  show escaped (d :: rest) = _
  unfold escaped
  split
  all_goals simp_all

/-- A character that needs an escape has seven bits. -/
theorem lt_of_needsEscape (h : needsEscape c = true) : c.toNat < 0x80 := by
  simp only [needsEscape, Bool.or_eq_true, Bool.and_eq_true, decide_eq_true_eq, beq_iff_eq] at h
  omega

/-- A character without an escape is a tab or no control character. -/
theorem code_of_not_needsEscape (h : needsEscape c = false) (hnewline : c ≠ '\n') :
    c = '\t' ∨ (0x20 ≤ c.toNat ∧ c.toNat ≠ 0x7F) := by
  by_cases htab : c = '\t'
  · exact .inl htab
  · simp only [needsEscape, Bool.or_eq_false_iff, Bool.and_eq_false_iff, decide_eq_false_iff_not,
      bne_eq_false_iff_eq, beq_eq_false_iff_ne, htab, hnewline, or_false] at h
    exact .inr ⟨by omega, h.2⟩

/-- A character without an escape stands for itself between double quotes. -/
theorem isBasicChar_of_not_needsEscape (h : needsEscape c = false) (hnewline : c ≠ '\n')
    (hquote : c ≠ '\x22') (hbackslash : c ≠ '\\') : isBasicChar c = true := by
  rcases code_of_not_needsEscape h hnewline with rfl | ⟨hlow, hdelete⟩
  · rfl
  · simp [isBasicChar, hlow, hdelete, hquote, hbackslash]

/-- A character without an escape stands for itself between single quotes. -/
theorem isLiteralChar_of_not_needsEscape (h : needsEscape c = false) (hnewline : c ≠ '\n')
    (hquote : c ≠ '\x27') : isLiteralChar c = true := by
  rcases code_of_not_needsEscape h hnewline with rfl | ⟨hlow, hdelete⟩
  · rfl
  · simp [isLiteralChar, hlow, hdelete, hquote]

/-- A character is written as itself or as an escape for it, unless it is a quote that may stay. -/
theorem spelled_writeChar {severalLines : Bool} {quotes : Nat}
    (h : ¬(c = '\x22' ∧ severalLines = true ∧ quotes < 2)) :
    Spelled severalLines c (writeChar severalLines quotes c) := by
  have hescape : ∀ {c d : Char}, escapes.lookup d = some c → d ≠ 'u' → d ≠ 'U' →
      isBlank d = false → d ≠ '\n' → d ≠ '\r' → Spelled severalLines c ['\\', d] :=
    fun h hu hU hblank hnewline hreturn =>
      .escape (escape_of_lookup h hu hU hblank hnewline hreturn)
  -- The cases are those of the printer, in its order.
  unfold writeChar
  split
  · exact hescape rfl (by decide) (by decide) rfl (by decide) (by decide)
  · exact hescape rfl (by decide) (by decide) rfl (by decide) (by decide)
  · split
    · next hlines => exact .lineEnd hlines
    · exact hescape rfl (by decide) (by decide) rfl (by decide) (by decide)
  · exact hescape rfl (by decide) (by decide) rfl (by decide) (by decide)
  · exact hescape rfl (by decide) (by decide) rfl (by decide) (by decide)
  · exact hescape rfl (by decide) (by decide) rfl (by decide) (by decide)
  · rw [if_neg (by simpa using h)]
    exact hescape rfl (by decide) (by decide) rfl (by decide) (by decide)
  · next _ _ hnewline _ _ hbackslash hquote =>
      split
      · next hcontrol =>
          exact .escape ⟨run_escaped_unicode (lt_of_needsEscape hcontrol), _, _, rfl, rfl,
            by decide, by decide⟩
      · next hcontrol =>
          exact .itself (isBasicChar_of_not_needsEscape (by simpa using hcontrol) hnewline hquote
            hbackslash)

/-! ## Between double quotes on one line -/

/-- A character of a class is read as itself. -/
theorem adds_itself {p : Char → Bool} {quote : Char} {other : Reader (List Char)}
    (hc : p c = true) (hquote : p quote = false) :
    Adds quote (orTry (oneOrMore p) other) [c] c where
  head_ne := ⟨c, [], rfl, fun heq => by rw [heq, hquote] at hc; cases hc⟩
  reads := Reads.cons_itself hc

/-- A character as it is written on one line between double quotes is read as the character. -/
theorem adds_basicPiece {unit : List Char} (h : Spelled false c unit) :
    Adds '\x22' basicPiece unit c := by
  cases h with
  | itself h => exact adds_itself h rfl
  | lineEnd h => cases h
  | @escape _ e h =>
      refine ⟨⟨'\\', e, rfl, by decide⟩, fun {cs _ _} hreads => ?_⟩
      have hrun : basicPiece.run ('\\' :: (e ++ cs)) = .ok ([c], cs) := by
        refine (run_orTry_right (declines_oneOrMore (by simp [isBasicChar]))).trans ?_
        exact (run_bind_of_ok (run_char _ _)).trans (run_bind_of_ok (h.read cs))
      exact .step hrun (by simp only [List.length_cons, List.length_append]; omega) hreads

/-- A double quote is no piece of a string. -/
theorem declines_basicPiece_quote (rest : List Char) : Declines basicPiece ('\x22' :: rest) :=
  .orTry (declines_oneOrMore (by simp [isBasicChar])) (.bind (declines_char (by simp)))

/-- Characters as they are written are read up to the quote that closes the string. -/
theorem reads_writeChars (quotes : Nat) (cs rest : List Char) :
    Reads basicPiece (writeChars false quotes cs ++ '\x22' :: rest) cs ('\x22' :: rest) := by
  induction cs generalizing quotes with
  | nil => exact .stop (declines_basicPiece_quote rest)
  | cons c cs ih =>
      rw [writeChars, List.append_assoc]
      exact (adds_basicPiece (spelled_writeChar (by simp))).reads (ih _)

theorem writeAs_basic_append (cs rest : List Char) :
    writeAs .basic cs ++ rest = '\x22' :: (writeChars false 0 cs ++ '\x22' :: rest) := by
  simp [writeAs]

/-- A text that is written on one line between double quotes is read back. -/
theorem run_basicString (cs rest : List Char) :
    basicString.run (writeAs .basic cs ++ rest) = .ok (String.ofList cs, rest) := by
  obtain ⟨pieces, hpieces, rfl⟩ := reads_writeChars 0 cs rest
  rw [writeAs_basic_append]
  refine (run_bind_of_ok (run_char _ _)).trans ((run_bind_of_ok (run_repeated hpieces)).trans ?_)
  exact run_bind_of_ok (run_labelled (run_commit (run_char _ _)))

/-! ## Between single quotes on one line -/

theorem writeAs_literal_append (cs rest : List Char) :
    writeAs .literal cs ++ rest = '\x27' :: (cs ++ '\x27' :: rest) := by
  simp [writeAs]

/-- A text that is written on one line between single quotes is read back. -/
theorem run_literalString (h : ∀ c ∈ cs, isLiteralChar c = true) (rest : List Char) :
    literalString.run (writeAs .literal cs ++ rest) = .ok (String.ofList cs, rest) := by
  rw [writeAs_literal_append]
  refine run_labelled ((run_bind_of_ok (run_char _ _)).trans ?_)
  refine (run_bind_of_ok (run_zeroOrMore h (by simp [isLiteralChar]))).trans ?_
  exact run_bind_of_ok (run_commit (run_char _ _))

end

end TypedSql.Toml
