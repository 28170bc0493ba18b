import TypedSql.Proofs.Toml.Strings

namespace TypedSql.Toml

open Reader Reading

/-! # Strings between threefold quotes

Between threefold quotes one or two quotes in a row stand for themselves, also in front of the
closing quotes. The readers of the two forms with threefold quotes differ in the quote and in the
pieces between the rows of quotes only, so that what is said of one holds of both.
-/

/-! ## The common form of the readers -/

/-- A row of quotes inside a string and the pieces after it. -/
def quotesAndPieces (quote : Char) (piece : Reader (List Char)) : Reader (List Char) := do
  let quotes ← innerQuotes quote (discard piece)
  return quotes ++ (← repeated piece).flatten

/-- What stands between threefold quotes. -/
def body (quote : Char) (piece : Reader (List Char)) : Reader (List Char) := do
  let first ← repeated piece
  let more ← repeated (quotesAndPieces quote piece)
  let last ← optional (innerQuotes quote (threeQuotes quote))
  return first.flatten ++ more.flatten ++ last.getD []

/-- A string between threefold quotes. -/
def threefold (label : String) (quote : Char) (piece : Reader (List Char)) : Reader String :=
  labelled label do
    threeQuotes quote
    let _ ← optional newline
    let content ← commit (body quote piece)
    commit (threeQuotes quote)
    return String.ofList content

/-- Strings of lines between double quotes have the common form. -/
theorem basicLines_eq_threefold :
    basicLines = threefold "multiline basic string" '\x22' basicLinesPiece := rfl

/-- Strings of lines between single quotes have the common form. -/
theorem literalLines_eq_threefold :
    literalLines = threefold "multiline literal string" '\x27' literalLinesChar := rfl

section

variable {quote c : Char} {piece : Reader (List Char)} {next : Reader Unit}
  {cs rest written content : List Char} {n : Nat}

/-! ## Rows of quotes -/

/-- Three quotes open a string of lines. -/
theorem run_threeQuotes (quote : Char) (cs : List Char) :
    (threeQuotes quote).run (quote :: quote :: quote :: cs) = .ok ((), cs) :=
  run_literal [quote, quote, quote] cs

theorem run_twoQuotes (quote : Char) (cs : List Char) :
    (literal [quote, quote]).run (quote :: quote :: cs) = .ok ((), cs) :=
  run_literal [quote, quote] cs

theorem run_oneQuote (quote : Char) (cs : List Char) :
    (literal [quote]).run (quote :: cs) = .ok ((), cs) :=
  run_literal [quote] cs

/-- Two quotes, if what is read next stands after them. -/
theorem run_innerQuotes_two (h : next.run cs = .ok ((), rest)) :
    (innerQuotes quote next).run (quote :: quote :: cs) = .ok ([quote, quote], cs) :=
  run_orTry_left <| (run_bind_of_ok (run_twoQuotes _ _)).trans <| run_bind_of_ok (run_ahead h)

/-- What is not read as two quotes: no second quote, or something else after it. -/
theorem declines_innerQuotes_two (h : ∀ more, cs = quote :: more → Declines next more) :
    Declines (do literal [quote, quote]; ahead next; return [quote, quote] : Reader (List Char))
      (quote :: cs) := by
  by_cases hcs : ∃ more, cs = quote :: more
  · obtain ⟨more, rfl⟩ := hcs
    exact .bind_of_ok (run_twoQuotes _ _) (.bind (h more rfl).ahead)
  · refine .bind (declines_literal fun more heq => hcs ⟨more, ?_⟩)
    exact ((List.cons.inj heq).2).symm

/-- One quote is content where no more follow that would close the string. -/
theorem run_innerQuotes_one (htwo : ∀ more, cs = quote :: more → Declines next more)
    (h : next.run cs = .ok ((), rest)) :
    (innerQuotes quote next).run (quote :: cs) = .ok ([quote], cs) :=
  (run_orTry_right (declines_innerQuotes_two htwo)).trans <|
    (run_bind_of_ok (run_oneQuote _ _)).trans <| run_bind_of_ok (run_ahead h)

/-- Quotes are no content where what follows them is not. -/
theorem declines_innerQuotes (htwo : ∀ more, cs = quote :: more → Declines next more)
    (hone : Declines next cs) : Declines (innerQuotes quote next) (quote :: cs) :=
  .orTry (declines_innerQuotes_two htwo) (.bind_of_ok (run_oneQuote _ _) (.bind hone.ahead))

/-! ## Closing quotes -/

/-- The closing quotes with what follows them. -/
def closing (quote : Char) (rest : List Char) : List Char := quote :: quote :: quote :: rest

/-- However many quotes stand before the closing ones, the first three of all are quotes. -/
theorem exists_threeQuotes (quote : Char) (n : Nat) (rest : List Char) :
    ∃ more, List.replicate n quote ++ closing quote rest = quote :: quote :: quote :: more := by
  induction n with
  | zero => exact ⟨rest, rfl⟩
  | succ n ih =>
      obtain ⟨more, hmore⟩ := ih
      exact ⟨quote :: more, by rw [List.replicate_succ, List.cons_append, hmore]⟩

/-- Two quotes are not three. -/
theorem declines_threeQuotes (hrest : ∀ c ∈ rest.head?, c ≠ quote) :
    Declines (threeQuotes quote) (quote :: quote :: rest) ∧
      Declines (threeQuotes quote) (quote :: rest) := by
  have hnone : ∀ more, rest ≠ quote :: more := by
    rintro more rfl
    exact hrest quote rfl rfl
  refine ⟨declines_literal fun more heq => ?_, declines_literal fun more heq => ?_⟩
  · exact hnone more (List.cons.inj (List.cons.inj heq).2).2.symm
  · exact hnone (quote :: more) (List.cons.inj heq).2.symm

/-- Up to two quotes in front of the closing quotes belong to the string. -/
theorem run_last (hrest : ∀ c ∈ rest.head?, c ≠ quote) (hn : n ≤ 2) :
    ∃ last, (optional (innerQuotes quote (threeQuotes quote))).run
        (List.replicate n quote ++ closing quote rest) = .ok (last, closing quote rest) ∧
      last.getD [] = List.replicate n quote := by
  obtain ⟨htwo, hone⟩ := declines_threeQuotes hrest
  have hcases : n = 0 ∨ n = 1 ∨ n = 2 := by omega
  -- Two quotes are tried first, then one. Three have to be left behind them.
  rcases hcases with rfl | rfl | rfl
  · refine ⟨none, run_optional_none (declines_innerQuotes (fun more heq => ?_) htwo), rfl⟩
    cases heq
    exact hone
  · refine ⟨some [quote], run_optional_some (run_innerQuotes_one (fun more heq => ?_)
      (run_threeQuotes quote rest)), rfl⟩
    cases heq
    exact htwo
  · exact ⟨some [quote, quote],
      run_optional_some (run_innerQuotes_two (run_threeQuotes quote rest)), rfl⟩

/-! ## Rows of quotes with pieces between them -/

/-- A text of rows of one or two quotes with pieces after each, and of up to two quotes in front of
the closing quotes. -/
inductive Rows (quote : Char) (piece : Reader (List Char)) (rest : List Char) :
    List Char → List Char → Prop
  | last {n : Nat} (h : n ≤ 2) :
      Rows quote piece rest (List.replicate n quote ++ closing quote rest) (List.replicate n quote)
  | row {n : Nat} {cs left content more : List Char} {c : Char} (hn : n = 1 ∨ n = 2)
      (hhead : ∀ d ∈ cs.head?, d ≠ quote) (h : Reads piece cs (c :: content) left)
      (hmore : Rows quote piece rest left more) :
      Rows quote piece rest (List.replicate n quote ++ cs)
        (List.replicate n quote ++ c :: content ++ more)

/-- One or two quotes are content when pieces follow them. -/
theorem run_quotesAndPieces (hn : n = 1 ∨ n = 2) (hhead : ∀ d ∈ cs.head?, d ≠ quote)
    {left : List Char} (h : Reads piece cs (c :: content) left) :
    (quotesAndPieces quote piece).run (List.replicate n quote ++ cs) =
      .ok (List.replicate n quote ++ c :: content, left) := by
  obtain ⟨first, after, hfirst⟩ := h.exists_run
  have hnext : (discard piece).run cs = .ok ((), after) := run_map_of_ok hfirst
  have hquotes : (innerQuotes quote (discard piece)).run (List.replicate n quote ++ cs) =
      .ok (List.replicate n quote, cs) := by
    rcases hn with rfl | rfl
    · refine run_innerQuotes_one (fun more heq => ?_) hnext
      exact absurd rfl (hhead quote (by simp [show cs = quote :: more from heq]))
    · exact run_innerQuotes_two hnext
  obtain ⟨pieces, hpieces, hflatten⟩ := h
  rw [← hflatten]
  exact (run_bind_of_ok hquotes).trans (run_bind_of_ok (run_repeated hpieces))

/-- The rows in the middle are read up to the quotes in front of the closing quotes. -/
theorem Rows.reads (hquote : ∀ cs, Declines piece (quote :: cs))
    (h : Rows quote piece rest cs content) :
    ∃ n, n ≤ 2 ∧ ∃ middle, content = middle ++ List.replicate n quote ∧
      Reads (quotesAndPieces quote piece) cs middle
        (List.replicate n quote ++ closing quote rest) := by
  induction h with
  | @last n hn =>
      refine ⟨n, hn, [], rfl, .stop (.bind ?_)⟩
      -- One quote or two are followed by a quote, and no piece starts with one.
      obtain ⟨more, hquotes⟩ := exists_threeQuotes quote n rest
      rw [hquotes]
      refine declines_innerQuotes (fun more heq => ?_) (hquote _).map
      cases heq
      exact (hquote _).map
  | @row n cs left content more c hn hhead h hmore ih =>
      obtain ⟨k, hk, middle, rfl, hreads⟩ := ih
      have hrun := run_quotesAndPieces hn hhead h
      refine ⟨k, hk, _, by rw [← List.append_assoc], .step hrun ?_ hreads⟩
      obtain ⟨pieces, hpieces, _⟩ := h
      have hle := hpieces.length_le
      rw [List.length_append, List.length_replicate]
      omega

/-! ## Texts as they are written between threefold quotes -/

/-- How a text is written between threefold quotes: quotes for themselves, but no three in a row,
and units for the characters. `n` counts the quotes in front. -/
inductive Between (quote : Char) (piece : Reader (List Char)) : Nat → List Char → List Char → Prop
  | nil (n : Nat) : Between quote piece n [] []
  | quote {n : Nat} {written cs : List Char} (hn : n < 2)
      (more : Between quote piece (n + 1) written cs) :
      Between quote piece n (quote :: written) (quote :: cs)
  | char {n : Nat} {unit written cs : List Char} {c : Char} (h : Adds quote piece unit c)
      (more : Between quote piece 0 written cs) :
      Between quote piece n (unit ++ written) (c :: cs)

/-- A written text is taken apart into pieces and the rows of quotes after them; after quotes, it
goes on with the row that these start. -/
theorem Between.rows (rest : List Char) (hquote : ∀ cs, Declines piece (quote :: cs))
    (h : Between quote piece n written cs) (hn : n ≤ 2) :
    (n = 0 → ∃ content left more, Reads piece (written ++ closing quote rest) content left ∧
      Rows quote piece rest left more ∧ content ++ more = cs) ∧
    (0 < n → Rows quote piece rest (List.replicate n quote ++ (written ++ closing quote rest))
      (List.replicate n quote ++ cs)) := by
  -- The induction goes from the end of the text to its start. A quote joins the row behind it, so
  -- the quotes in front of a text have to be known when the row that they start is closed.
  induction h with
  | nil n =>
      refine ⟨fun _ => ⟨[], _, [], .stop (hquote _), .last (n := 0) (Nat.zero_le 2), rfl⟩,
        fun _ => ?_⟩
      rw [List.nil_append, List.append_nil]
      exact .last hn
  | @quote n written cs hlt more ih =>
      obtain ⟨-, hrow⟩ := ih (by omega)
      refine ⟨?_, fun _ => ?_⟩
      · rintro rfl
        exact ⟨[], _, _, .stop (hquote _), hrow (by omega), rfl⟩
      · have hsnoc : ∀ more, List.replicate (n + 1) quote ++ more =
            List.replicate n quote ++ quote :: more := fun more => by
          rw [List.replicate_succ', List.append_assoc, List.singleton_append]
        have hstart := hrow (by omega)
        rwa [hsnoc, hsnoc] at hstart
  | @char n unit written cs c hadds more ih =>
      obtain ⟨hstart, -⟩ := ih (by omega)
      obtain ⟨content, left, rows, hreads, hrows, rfl⟩ := hstart rfl
      have hunit := hadds.reads hreads
      rw [← List.append_assoc] at hunit
      refine ⟨fun _ => ⟨_, _, _, hunit, hrows, rfl⟩, fun hpos => ?_⟩
      obtain ⟨d, unitRest, rfl, hd⟩ := hadds.head_ne
      have hhead : ∀ e ∈ (d :: unitRest ++ written ++ closing quote rest).head?, e ≠ quote := by
        simpa using hd
      have hrow := Rows.row (by omega) hhead hunit hrows (n := n)
      rwa [List.append_assoc (List.replicate n quote)] at hrow

/-- What is written between threefold quotes is read as it is meant, by induction on the pieces. -/
theorem run_body (hquote : ∀ cs, Declines piece (quote :: cs))
    (hrest : ∀ c ∈ rest.head?, c ≠ quote) (h : Between quote piece 0 written cs) :
    (body quote piece).run (written ++ closing quote rest) = .ok (cs, closing quote rest) := by
  obtain ⟨content, left, more, hreads, hrows, rfl⟩ := (h.rows rest hquote (Nat.zero_le 2)).1 rfl
  obtain ⟨n, hn, middle, rfl, hmiddle⟩ := hrows.reads hquote
  obtain ⟨last, hlast, hquotes⟩ := run_last hrest hn
  obtain ⟨first, hfirst, rfl⟩ := hreads
  obtain ⟨groups, hgroups, rfl⟩ := hmiddle
  refine (run_bind_of_ok (run_repeated hfirst)).trans ?_
  refine (run_bind_of_ok (run_repeated hgroups)).trans ((run_bind_of_ok hlast).trans ?_)
  rw [hquotes, List.append_assoc]
  rfl

/-- The line end at the start that is dropped; a text without one does not start with one. -/
inductive Lead (left : List Char) : List Char → Prop
  | lineEnd : Lead left ['\n']
  | none (h : ∀ c ∈ left.head?, c ≠ '\n' ∧ c ≠ '\r') : Lead left []

/-- A string of lines is read as it is meant, after the line end that may come first. -/
theorem run_threefold {label : String} {lead : List Char}
    (hquote : ∀ cs, Declines piece (quote :: cs)) (hrest : ∀ c ∈ rest.head?, c ≠ quote)
    (h : Between quote piece 0 written cs) (hlead : Lead (written ++ closing quote rest) lead) :
    (threefold label quote piece).run
        (quote :: quote :: quote :: (lead ++ (written ++ closing quote rest))) =
      .ok (String.ofList cs, rest) := by
  have hnewline : ∃ first, (optional newline).run (lead ++ (written ++ closing quote rest)) =
      .ok (first, written ++ closing quote rest) := by
    cases hlead with
    | lineEnd => exact ⟨_, run_optional_some (run_newline _)⟩
    | none h => exact ⟨_, run_optional_none (declines_newline h)⟩
  obtain ⟨first, hfirst⟩ := hnewline
  refine run_labelled ((run_bind_of_ok (run_threeQuotes _ _)).trans ?_)
  refine (run_bind_of_ok hfirst).trans ?_
  refine (run_bind_of_ok (run_commit (run_body hquote hrest h))).trans ?_
  exact run_bind_of_ok (run_commit (run_threeQuotes _ _))

end

/-! ## Between double quotes -/

section

variable {c : Char} {cs rest : List Char}

/-- A double quote is no piece of a content. -/
theorem declines_basicLinesPiece_quote (rest : List Char) :
    Declines basicLinesPiece ('\x22' :: rest) := by
  have hbackslash : ∀ {α : Type} (f : Char → Reader α),
      Declines (char '\\' >>= f) ('\x22' :: rest) := fun _ => .bind (declines_char (by simp))
  refine .orTry (declines_oneOrMore (by simp [isBasicChar])) (.orTry ?_ (.orTry (hbackslash _) ?_))
  · exact .bind (hbackslash _)
  · exact .bind (declines_newline (by simp))

/-- An escape for a character is no escape for a line end. -/
theorem Escape.declines_continuation {e : List Char} (h : Escape c e) (rest : List Char) :
    Declines continuation ('\\' :: (e ++ rest)) := by
  obtain ⟨d, more, rfl, hblank, hnewline, hreturn⟩ := h.head
  refine .bind_of_ok (run_char _ _) (.bind_of_ok (run_blanks_nil ?_) (.bind (declines_newline ?_)))
  · simpa using hblank
  · simpa using ⟨hnewline, hreturn⟩

/-- A character as it is written between double quotes is read as the character. -/
theorem adds_basicLinesPiece {unit : List Char} (h : Spelled true c unit) :
    Adds '\x22' basicLinesPiece unit c := by
  cases h with
  | itself h => exact adds_itself h rfl
  | lineEnd =>
      refine ⟨⟨'\n', [], rfl, by decide⟩, fun {cs _ _} hreads => ?_⟩
      have hbackslash : ∀ {α : Type} (f : Char → Reader α),
          Declines (char '\\' >>= f) ('\n' :: cs) := fun _ => .bind (declines_char (by simp))
      have hrun : basicLinesPiece.run ('\n' :: cs) = .ok (['\n'], cs) := by
        refine (run_orTry_right (declines_oneOrMore (by simp [isBasicChar]))).trans ?_
        refine (run_orTry_right (.bind (hbackslash _))).trans ?_
        exact (run_orTry_right (hbackslash _)).trans (run_bind_of_ok (run_newline _))
      exact .step hrun (by simp) hreads
  | @escape _ e h =>
      refine ⟨⟨'\\', e, rfl, by decide⟩, fun {cs _ _} hreads => ?_⟩
      have hrun : basicLinesPiece.run ('\\' :: (e ++ cs)) = .ok ([c], cs) := by
        refine (run_orTry_right (declines_oneOrMore (by simp [isBasicChar]))).trans ?_
        refine (run_orTry_right (.bind (h.declines_continuation cs))).trans (run_orTry_left ?_)
        exact (run_bind_of_ok (run_char _ _)).trans (run_bind_of_ok (h.read cs))
      exact .step hrun (by simp only [List.length_cons, List.length_append]; omega) hreads

/-- Characters as they are written between double quotes are read as the characters. -/
theorem between_writeChars (quotes : Nat) (cs : List Char) :
    Between '\x22' basicLinesPiece quotes (writeChars true quotes cs) cs := by
  induction cs generalizing quotes with
  | nil => exact .nil quotes
  | cons c cs ih =>
      rw [writeChars]
      by_cases hraw : c = '\x22' ∧ quotes < 2
      · obtain ⟨rfl, hquotes⟩ := hraw
        simpa [hquotes, writeChar] using Between.quote hquotes (ih (quotes + 1))
      · have hspelled : Spelled true c (writeChar true quotes c) :=
          spelled_writeChar fun h => hraw ⟨h.1, h.2.2⟩
        have hnext : (if (c = '\x22' && true && quotes < 2) = true then quotes + 1 else 0) = 0 :=
          if_neg (by simpa using hraw)
        rw [hnext]
        exact .char (adds_basicLinesPiece hspelled) (ih 0)

/-- Only a line end is written as something that starts with one. -/
theorem exists_writeChar (h : c ≠ '\n') :
    ∃ d more, writeChar true 0 c = d :: more ∧ d ≠ '\n' ∧ d ≠ '\r' := by
  by_cases hquote : c = '\x22'
  · exact ⟨'\x22', [], by simp [hquote, writeChar], by decide, by decide⟩
  · have hspelled : Spelled true c (writeChar true 0 c) := spelled_writeChar fun h => hquote h.1
    generalize writeChar true 0 c = unit at hspelled
    cases hspelled with
    | itself hbasic =>
        refine ⟨c, [], rfl, h, ?_⟩
        rintro rfl
        cases hbasic
    | lineEnd => exact absurd rfl h
    | escape => exact ⟨'\\', _, rfl, by decide, by decide⟩

/-- What is written for a text without line ends does not start with one. -/
theorem head_writeChars (h : '\n' ∉ cs) (rest : List Char) :
    ∀ d ∈ (writeChars true 0 cs ++ closing '\x22' rest).head?, d ≠ '\n' ∧ d ≠ '\r' := by
  cases cs with
  | nil => simp [writeChars, closing]
  | cons c cs =>
      rw [List.mem_cons, not_or] at h
      obtain ⟨d, more, hunit, hd⟩ := exists_writeChar (Ne.symm h.1)
      rw [writeChars, hunit]
      simpa using hd

/-- A text that is written as lines between double quotes is read back. -/
theorem run_basicLines (cs : List Char) (hrest : ∀ c ∈ rest.head?, c ≠ '\x22') :
    basicLines.run (writeAs .basicLines cs ++ rest) = .ok (String.ofList cs, rest) := by
  have hwrite : writeAs .basicLines cs ++ rest = '\x22' :: '\x22' :: '\x22' ::
      ((if cs.contains '\n' then ['\n'] else []) ++
        (writeChars true 0 cs ++ closing '\x22' rest)) := by
    simp [writeAs, closing]
  rw [hwrite, basicLines_eq_threefold]
  refine run_threefold declines_basicLinesPiece_quote hrest (between_writeChars 0 cs) ?_
  split
  · exact .lineEnd
  · next hlines => exact .none (head_writeChars (by simpa using hlines) rest)

end

/-! ## Between single quotes -/

section

variable {c : Char} {cs rest : List Char}

/-- A single quote is no piece of a content. -/
theorem declines_literalLinesChar_quote (rest : List Char) :
    Declines literalLinesChar ('\x27' :: rest) := by
  refine .orTry (.bind (declines_charOf ?_)) (.bind (declines_newline ?_))
  · simp [isLiteralChar]
  · simp

/-- A character that needs no escape stands for itself between single quotes. -/
theorem adds_literalLinesChar (h : needsEscape c = false) (hquote : c ≠ '\x27') :
    Adds '\x27' literalLinesChar [c] c := by
  refine ⟨⟨c, [], rfl, hquote⟩, fun {cs _ _} hreads => ?_⟩
  have hrun : literalLinesChar.run (c :: cs) = .ok ([c], cs) := by
    by_cases hnewline : c = '\n'
    · rw [hnewline]
      refine (run_orTry_right (.bind (declines_charOf ?_))).trans (run_bind_of_ok (run_newline cs))
      simp [isLiteralChar]
    · exact run_orTry_left (run_bind_of_ok
        (run_charOf (isLiteralChar_of_not_needsEscape h hnewline hquote)))
  exact .step hrun (by simp) hreads

/-- The longest row is at least as long as the one that has started. -/
theorem le_longestRow (c : Char) (row : Nat) (cs : List Char) : row ≤ longestRow c row cs := by
  induction cs generalizing row with
  | nil => exact Nat.le_refl _
  | cons d cs ih =>
      rw [longestRow]
      split
      · exact Nat.le_of_succ_le (ih (row + 1))
      · exact Nat.le_max_left _ _

/-- A text without long rows of quotes stands for itself between threefold single quotes. -/
theorem between_of_longestRow {n : Nat} (hcontrol : ∀ c ∈ cs, needsEscape c = false)
    (hrow : longestRow '\x27' n cs ≤ 2) : Between '\x27' literalLinesChar n cs cs := by
  induction cs generalizing n with
  | nil => exact .nil n
  | cons c cs ih =>
      obtain ⟨hc, hcs⟩ := List.forall_mem_cons.1 hcontrol
      rw [longestRow] at hrow
      split at hrow
      · next hquote =>
          subst hquote
          exact .quote (Nat.lt_of_lt_of_le (Nat.lt_succ_self n)
            (Nat.le_trans (le_longestRow _ _ _) hrow)) (ih hcs hrow)
      · next hquote =>
          exact .char (adds_literalLinesChar hc hquote)
            (ih hcs (Nat.le_trans (Nat.le_max_right _ _) hrow))

/-- A text that is written as lines between single quotes is read back. -/
theorem run_literalLines (hcontrol : ∀ c ∈ cs, needsEscape c = false)
    (hrow : longestRow '\x27' 0 cs ≤ 2) (hrest : ∀ c ∈ rest.head?, c ≠ '\x27') :
    literalLines.run (writeAs .literalLines cs ++ rest) = .ok (String.ofList cs, rest) := by
  have hwrite : writeAs .literalLines cs ++ rest = '\x27' :: '\x27' :: '\x27' ::
      ((if cs.contains '\n' then ['\n'] else []) ++ (cs ++ closing '\x27' rest)) := by
    simp [writeAs, closing]
  rw [hwrite, literalLines_eq_threefold]
  have hbetween := between_of_longestRow hcontrol hrow
  refine run_threefold declines_literalLinesChar_quote hrest hbetween ?_
  split
  · exact .lineEnd
  · next hlines =>
      refine .none ?_
      cases cs with
      | nil => simp [closing]
      | cons c cs =>
          have hnewline : c ≠ '\n' := by
            rintro rfl
            simp at hlines
          have hreturn : c ≠ '\r' := by
            rintro rfl
            cases hcontrol _ List.mem_cons_self
          simpa using ⟨hnewline, hreturn⟩

end

/-! ## The plainest form -/

section

variable {cs rest : List Char} {form : Form}

/-- What a text must be like to stand in a form. -/
def Form.Holds (cs : List Char) : Form → Prop
  | basic | basicLines => True
  | literal => ∀ c ∈ cs, isLiteralChar c = true
  | literalLines => (∀ c ∈ cs, needsEscape c = false) ∧ longestRow '\x27' 0 cs ≤ 2

/-- A character without a row does not occur. -/
theorem not_mem_of_longestRow {c : Char} {row : Nat} (h : longestRow c row cs = 0) : c ∉ cs := by
  induction cs generalizing row with
  | nil => exact List.not_mem_nil
  | cons d cs ih =>
      rw [longestRow] at h
      split at h
      · have hle := le_longestRow c (row + 1) cs
        omega
      · next hd =>
          rw [List.mem_cons, not_or]
          exact ⟨Ne.symm hd, ih (Nat.le_zero.1 (h ▸ Nat.le_max_right _ _))⟩

/-- The form that is chosen for a text can hold it. -/
theorem Form.holds_ofText (cs : List Char) : (Form.ofText cs).Holds cs := by
  have hcontrol : (!cs.any needsEscape) = true → ∀ c ∈ cs, needsEscape c = false := by simp
  unfold Form.ofText
  dsimp only
  split
  · trivial
  split
  · next h =>
      simp only [Bool.and_eq_true, beq_iff_eq] at h
      obtain ⟨⟨hescape, hsingles⟩, hlines⟩ := h
      intro c hc
      refine isLiteralChar_of_not_needsEscape (hcontrol hescape c hc) ?_ ?_
      · rintro rfl
        simp [hc] at hlines
      · rintro rfl
        exact not_mem_of_longestRow hsingles hc
  split
  · trivial
  split
  · next h =>
      simp only [Bool.and_eq_true, decide_eq_true_eq] at h
      exact ⟨hcontrol h.1, h.2⟩
  split
  · trivial
  · trivial

/-- What follows a text does not start with a quote. -/
def EndsText (rest : List Char) : Prop := ∀ c ∈ rest.head?, c ≠ '\x22' ∧ c ≠ '\x27'

/-- No string of lines starts where three quotes do not stand. -/
theorem declines_threefold {label : String} {quote : Char} {piece : Reader (List Char)}
    (h : Declines (threeQuotes quote) cs) : Declines (threefold label quote piece) cs :=
  (Declines.bind h).labelled

/-- A string on one line does not start with three quotes. -/
theorem declines_threeQuotes_line {quote : Char} {content : List Char}
    (hcontent : ∀ c ∈ content.head?, c ≠ quote) (hrest : ∀ c ∈ rest.head?, c ≠ quote) :
    Declines (threeQuotes quote) (quote :: (content ++ quote :: rest)) := by
  cases content with
  | nil => exact (declines_threeQuotes hrest).1
  | cons c content =>
      refine declines_literal fun more heq => hcontent c rfl ?_
      exact (List.cons.inj (List.cons.inj heq).2).1.symm

/-- A string on one line between double quotes does not start one of lines. -/
theorem declines_basicLines_basic (cs : List Char) (hrest : ∀ c ∈ rest.head?, c ≠ '\x22') :
    Declines basicLines (writeAs .basic cs ++ rest) := by
  have hhead : ∀ d ∈ (writeChars false 0 cs).head?, d ≠ '\x22' := by
    cases cs with
    | nil => simp [writeChars]
    | cons c cs =>
        have hspelled : Spelled false c (writeChar false 0 c) := spelled_writeChar (by simp)
        obtain ⟨d, more, hunit, hd⟩ := (adds_basicPiece hspelled).head_ne
        rw [writeChars, hunit]
        simpa using hd
  rw [writeAs_basic_append]
  exact declines_threefold (declines_threeQuotes_line hhead hrest)

/-- A string on one line between single quotes does not start one of lines. -/
theorem declines_literalLines_literal (h : Form.literal.Holds cs)
    (hrest : ∀ c ∈ rest.head?, c ≠ '\x27') :
    Declines literalLines (writeAs .literal cs ++ rest) := by
  have hhead : ∀ d ∈ cs.head?, d ≠ '\x27' := by
    rintro d hd rfl
    cases h _ (List.mem_of_mem_head? hd)
  rw [writeAs_literal_append]
  exact declines_threefold (declines_threeQuotes_line hhead hrest)

/-- A text in a form that holds it is read as that text. -/
theorem run_string_writeAs (h : form.Holds cs) (hrest : EndsText rest) :
    string.run (writeAs form cs ++ rest) = .ok (String.ofList cs, rest) := by
  have hdouble : ∀ c ∈ rest.head?, c ≠ '\x22' := fun c hc => (hrest c hc).1
  have hsingle : ∀ c ∈ rest.head?, c ≠ '\x27' := fun c hc => (hrest c hc).2
  have hbasic : ∀ more, Declines basicLines ('\x27' :: more) ∧
      Declines basicString ('\x27' :: more) := fun more =>
    ⟨declines_threefold (declines_literal (by simp)),
      .bind (declines_char (by simp))⟩
  -- The readers of the other forms that are tried before have to decline.
  cases form with
  | basic =>
      have hlines := declines_basicLines_basic cs hdouble
      exact (run_orTry_right hlines).trans (run_orTry_left (run_basicString cs rest))
  | literal =>
      have hlines := declines_literalLines_literal h hsingle
      refine (run_orTry_right (hbasic _).1).trans ((run_orTry_right (hbasic _).2).trans ?_)
      exact (run_orTry_right hlines).trans (run_literalString h rest)
  | basicLines => exact run_orTry_left (run_basicLines cs hdouble)
  | literalLines =>
      refine (run_orTry_right (hbasic _).1).trans ((run_orTry_right (hbasic _).2).trans ?_)
      exact run_orTry_left (run_literalLines h.1 h.2 hsingle)

/-- A text that is written in any of the forms is read back. -/
theorem run_string (s : String) (hrest : EndsText rest) :
    string.run (writeText s ++ rest) = .ok (s, rest) := by
  rw [writeText, run_string_writeAs (Form.holds_ofText s.toList) hrest, String.ofList_toList]

/-- A written text starts with a quote. -/
theorem exists_writeText (s : String) :
    ∃ c cs, writeText s = c :: cs ∧ (c = '\x22' ∨ c = '\x27') := by
  unfold writeText
  cases Form.ofText s.toList with
  | basic => exact ⟨_, _, rfl, .inl rfl⟩
  | literal => exact ⟨_, _, rfl, .inr rfl⟩
  | basicLines => exact ⟨_, _, rfl, .inl rfl⟩
  | literalLines => exact ⟨_, _, rfl, .inr rfl⟩

end

end TypedSql.Toml
