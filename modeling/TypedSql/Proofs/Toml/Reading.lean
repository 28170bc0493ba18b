import Mathlib.Data.List.Basic
import TypedSql.Proofs.Reading
import TypedSql.Toml.Reader

namespace TypedSql.Toml

open Reading

/-! # What the readers of a TOML text give

One lemma for each way to combine readers. A reader either gives a value and a rest, or it declines:
it fails in such a way that another reading of the same text may be tried.
-/

namespace Reader

variable {α β : Type} {r first second : Reader α} {f : α → Reader β} {cs rest last : List Char}
  {a : α}

/-- A reader fails, and not for good. -/
def Declines (r : Reader α) (cs : List Char) : Prop :=
  ∃ fault, r.run cs = .error fault ∧ fault.final = false

theorem declines_fail (cs : List Char) : Declines (fail : Reader α) cs := ⟨_, rfl, rfl⟩

/-- What follows a reader that declines is not tried. -/
theorem Declines.bind (h : Declines r cs) : Declines (r >>= f) cs := by
  obtain ⟨fault, hrun, hfinal⟩ := h
  refine ⟨fault, ?_, hfinal⟩
  rw [StateT.run_bind, hrun]
  rfl

/-- The first step succeeds, and a later one declines. -/
theorem Declines.bind_of_ok (h : r.run cs = .ok (a, rest)) (hf : Declines (f a) rest) :
    Declines (r >>= f) cs := by
  obtain ⟨fault, hrun, hfinal⟩ := hf
  exact ⟨fault, by rw [run_bind_of_ok h, hrun], hfinal⟩

/-- A reader declines whatever is made of what it would give. -/
theorem Declines.map {g : α → β} (h : Declines r cs) : Declines (g <$> r) cs := by
  obtain ⟨fault, hrun, hfinal⟩ := h
  refine ⟨fault, ?_, hfinal⟩
  rw [StateT.run_map, hrun]
  rfl

/-! ## Names and finality of faults -/

/-- A reader whose faults are final gives what it gives without that. -/
theorem run_commit (h : r.run cs = .ok (a, rest)) : (commit r).run cs = .ok (a, rest) :=
  congrArg (Except.mapError _) h

/-- A name for what is read makes no difference where it is read. -/
theorem run_labelled {label : String} (h : r.run cs = .ok (a, rest)) :
    (labelled label r).run cs = .ok (a, rest) :=
  congrArg (Except.mapError _) h

/-- What is said to be expected makes no difference where it is read. -/
theorem run_expecting {expected : List String} (h : r.run cs = .ok (a, rest)) :
    (expecting expected r).run cs = .ok (a, rest) :=
  congrArg (Except.mapError _) h

/-- A reader that declines declines under a name as well. -/
theorem Declines.labelled {label : String} (h : Declines r cs) :
    Declines (labelled label r) cs := by
  obtain ⟨fault, hrun, hfinal⟩ := h
  exact ⟨_, congrArg (Except.mapError _) hrun, hfinal⟩

theorem Declines.expecting {expected : List String} (h : Declines r cs) :
    Declines (expecting expected r) cs := by
  obtain ⟨fault, hrun, hfinal⟩ := h
  exact ⟨_, congrArg (Except.mapError _) hrun, hfinal⟩

/-! ## Alternatives -/

/-- The second reader is tried where the first one declines, and only there. -/
theorem orTry_run (first second : Reader α) (cs : List Char) :
    (orTry first second).run cs =
      match first.run cs with
      | .error fault => if fault.final then .error fault else second.run cs
      | result => result := rfl

/-- What the first reader gives is what both give. -/
theorem run_orTry_left (h : first.run cs = .ok (a, rest)) :
    (orTry first second).run cs = .ok (a, rest) := by
  rw [orTry_run, h]

/-- Where the first reader declines the second one is the only one. -/
theorem run_orTry_right (h : Declines first cs) :
    (orTry first second).run cs = second.run cs := by
  obtain ⟨fault, hrun, hfinal⟩ := h
  rw [orTry_run, hrun]
  simp [hfinal]

/-- Two readers decline together when each of them does. -/
theorem Declines.orTry (hfirst : Declines first cs) (hsecond : Declines second cs) :
    Declines (orTry first second) cs := by
  obtain ⟨fault, hrun, hfinal⟩ := hsecond
  exact ⟨fault, by rw [run_orTry_right hfirst, hrun], hfinal⟩

/-- What may be there is given when it is read. -/
theorem run_optional_some (h : r.run cs = .ok (a, rest)) :
    (optional r).run cs = .ok (some a, rest) :=
  run_orTry_left (run_map_of_ok h)

/-- What may be there is none when its reader declines, and nothing is read. -/
theorem run_optional_none (h : Declines r cs) : (optional r).run cs = .ok (none, cs) :=
  run_orTry_right h.map

/-! ## Places and checks -/

/-- Looking ahead gives what is read and stays where it was. -/
theorem run_ahead (h : r.run cs = .ok (a, rest)) : (ahead r).run cs = .ok (a, cs) :=
  (run_bind_of_ok (run_get cs)).trans (run_bind_of_ok h)

theorem Declines.ahead (h : Declines r cs) : Declines (ahead r) cs :=
  .bind_of_ok (run_get cs) h.bind

/-- A value that passes its check is given as the check makes it. -/
theorem run_checked {g : α → Except Clash β} {b : β} (h : r.run cs = .ok (a, rest))
    (hg : g a = .ok b) : (checked r g).run cs = .ok (b, rest) := by
  have hrun : r cs = .ok (a, rest) := h
  show checked r g cs = .ok (b, rest)
  unfold checked
  rw [hrun]
  dsimp only
  rw [hg]

/-- A value comes with the place where it was read. -/
theorem run_spanned (h : r.run cs = .ok (a, rest)) :
    (spanned r).run cs = .ok ((a, ⟨cs, rest⟩), rest) :=
  (run_bind_of_ok (run_get cs)).trans (run_bind_of_ok h)

/-! ## Characters -/

theorem run_peek (cs : List Char) : peek.run cs = .ok (cs.head?, cs) := rfl

/-- A character of a class is read where it stands. -/
theorem run_charOf {p : Char → Bool} {c : Char} (h : p c = true) :
    (charOf p).run (c :: cs) = .ok (c, cs) :=
  if_pos h

/-- A character of a class is not read where another one stands, or none. -/
theorem declines_charOf {p : Char → Bool} (h : ∀ c ∈ cs.head?, p c = false) :
    Declines (charOf p) cs := by
  cases cs with
  | nil => exact ⟨_, rfl, rfl⟩
  | cons c cs => exact ⟨_, if_neg (by simp [h c rfl]), rfl⟩

/-- A character is read where it stands. -/
theorem run_char (c : Char) (cs : List Char) : (char c).run (c :: cs) = .ok (c, cs) :=
  run_charOf (beq_self_eq_true c)

/-- A character is not read where another one stands, or none. -/
theorem declines_char {c : Char} (h : cs.head? ≠ some c) : Declines (char c) cs := by
  refine declines_charOf fun d hd => ?_
  rw [beq_eq_false_iff_ne]
  rintro rfl
  exact h hd

/-- A fixed text is read where the characters start with it. -/
theorem literal_run (text cs : List Char) :
    (literal text).run cs =
      match text.isPrefixOf? cs with
      | some rest => .ok ((), rest)
      | none => .error (.bare cs) := rfl

/-- A fixed text is read where it stands. -/
theorem run_literal (text cs : List Char) : (literal text).run (text ++ cs) = .ok ((), cs) := by
  rw [literal_run, List.isPrefixOf?_eq_some_iff_append_eq.2 rfl]

/-- A fixed text is not read where the characters do not start with it. -/
theorem declines_literal {text : List Char} (h : ∀ rest, text ++ rest ≠ cs) :
    Declines (literal text) cs := by
  have hnone : text.isPrefixOf? cs = none := by
    rw [Option.eq_none_iff_forall_ne_some]
    intro rest hrest
    exact h rest (List.isPrefixOf?_eq_some_iff_append_eq.1 hrest)
  exact ⟨.bare cs, by rw [literal_run, hnone], rfl⟩

/-- A run of a class is read as far as the first character that is not of it. -/
theorem run_zeroOrMore {p : Char → Bool} (h : ∀ c ∈ cs, p c = true)
    (hrest : ∀ c ∈ rest.head?, p c = false) :
    (zeroOrMore p).run (cs ++ rest) = .ok (cs, rest) := by
  have htake : rest.takeWhile p = [] ∧ rest.dropWhile p = rest := by
    cases rest with
    | nil => exact ⟨rfl, rfl⟩
    | cons c rest => simp [hrest c rfl]
  show Except.ok ((cs ++ rest).takeWhile p, (cs ++ rest).dropWhile p) = _
  rw [List.takeWhile_append_of_pos h, List.dropWhile_append_of_pos h, htake.1, htake.2,
    List.append_nil]

/-- A run that is not to be empty is the longest one, and is declined when it is empty. -/
theorem oneOrMore_run (p : Char → Bool) (cs : List Char) :
    (oneOrMore p).run cs =
      match cs.takeWhile p with
      | [] => .error (.bare cs)
      | taken => .ok (taken, cs.dropWhile p) := rfl

/-- A run with at least one character is read as far as the first one that is not of its class. -/
theorem run_oneOrMore {p : Char → Bool} (hne : cs ≠ []) (h : ∀ c ∈ cs, p c = true)
    (hrest : ∀ c ∈ rest.head?, p c = false) :
    (oneOrMore p).run (cs ++ rest) = .ok (cs, rest) := by
  have hrun := run_zeroOrMore h hrest
  simp only [zeroOrMore, StateT.run, Except.ok.injEq, Prod.mk.injEq] at hrun
  rw [oneOrMore_run, hrun.1, hrun.2]
  cases cs with
  | nil => exact absurd rfl hne
  | cons c cs => rfl

/-- A run is not read where its first character is not of the class. -/
theorem declines_oneOrMore {p : Char → Bool} (h : ∀ c ∈ cs.head?, p c = false) :
    Declines (oneOrMore p) cs := by
  refine ⟨.bare cs, ?_, rfl⟩
  cases cs with
  | nil => rfl
  | cons c cs => rw [oneOrMore_run, List.takeWhile_cons_of_neg (by simp [h c rfl])]

/-! ## Repetition -/

/-- A reader reads values one after the other, each off a part that is not empty, until it declines
in front of `last`. -/
inductive Pieces (r : Reader α) : List Char → List α → List Char → Prop
  | stop {last : List Char} (h : Declines r last) : Pieces r last [] last
  | step {cs rest last : List Char} {a : α} {as : List α} (h : r.run cs = .ok (a, rest))
      (hlt : rest.length < cs.length) (more : Pieces r rest as last) : Pieces r cs (a :: as) last

/-- Pieces are read from the front, so that no more is left than there was. -/
theorem Pieces.length_le {as : List α} (h : Pieces r cs as last) : last.length ≤ cs.length := by
  induction h with
  | stop => exact Nat.le_refl _
  | step _ hlt _ ih => omega

/-- A reader is repeated for as long as it reads pieces, by induction on the pieces. -/
theorem run_repeatLoop {as : List α} (h : Pieces r cs as last) {fuel : Nat}
    (hfuel : cs.length ≤ fuel) : (repeatLoop r fuel).run cs = .ok (as, last) := by
  -- Each value takes a character at least, so the fuel lasts as long as the text does.
  induction h generalizing fuel with
  | stop h =>
      cases fuel with
      | zero => rfl
      | succ fuel => exact run_bind_of_ok (run_optional_none h)
  | step h hlt _ ih =>
      cases fuel with
      | zero => omega
      | succ fuel =>
          refine (run_bind_of_ok (run_optional_some h)).trans ?_
          exact run_bind_of_ok (ih (by omega))

/-- Repeating a reader gives the pieces that it reads. -/
theorem run_repeated {as : List α} (h : Pieces r cs as last) :
    (repeated r).run cs = .ok (as, last) :=
  (run_bind_of_ok (run_get cs)).trans (run_repeatLoop h (Nat.le_refl _))

end Reader

open Reader

/-! ## Blanks and line ends -/

section

variable {cs : List Char}

/-- There are no blanks where the first character is none. -/
theorem run_blanks_nil (h : ∀ c ∈ cs.head?, isBlank c = false) : blanks.run cs = .ok ([], cs) :=
  run_zeroOrMore (List.forall_mem_nil _) h

/-- One blank is read where no other follows. -/
theorem run_blanks_space (h : ∀ c ∈ cs.head?, isBlank c = false) :
    blanks.run (' ' :: cs) = .ok ([' '], cs) :=
  run_zeroOrMore (List.forall_mem_singleton.2 rfl) h

theorem run_newline (cs : List Char) : newline.run ('\n' :: cs) = .ok ((), cs) :=
  run_orTry_left (run_map_of_ok (run_char _ _))

/-- No line ends where neither of its characters stands. -/
theorem declines_newline (h : ∀ c ∈ cs.head?, c ≠ '\n' ∧ c ≠ '\r') : Declines newline cs := by
  refine .orTry (.map (declines_char fun hhead => ?_)) (.bind (declines_char fun hhead => ?_))
  · exact (h _ hhead).1 rfl
  · exact (h _ hhead).2 rfl

theorem run_lineRest (cs : List Char) : lineRest.run ('\n' :: cs) = .ok ((), cs) := by
  have hblanks : blanks.run ('\n' :: cs) = .ok ([], '\n' :: cs) :=
    run_blanks_nil (by simp [isBlank])
  have hcomment : Declines comment ('\n' :: cs) := .bind (declines_char (by simp))
  refine (run_bind_of_ok hblanks).trans ((run_bind_of_ok (run_optional_none hcomment)).trans ?_)
  exact run_orTry_left (run_newline cs)

/-- A character that ends a stretch of blanks, comments and line ends. -/
def EndsGap (c : Char) : Prop := isBlank c = false ∧ c ≠ '#' ∧ c ≠ '\n' ∧ c ≠ '\r'

/-- Blanks between values are passed over as far as a character that ends a gap. -/
theorem run_gapLoop {blank : List Char} {c : Char} {fuel : Nat}
    (hblank : ∀ d ∈ blank, isBlank d = true) (h : EndsGap c) :
    (gapLoop (fuel + 1)).run (blank ++ c :: cs) = .ok ((), c :: cs) := by
  obtain ⟨hc, hcomment, hnewline, hreturn⟩ := h
  refine (run_bind_of_ok (run_zeroOrMore hblank (by simpa using hc))).trans ?_
  refine (run_bind_of_ok (run_peek _)).trans ?_
  dsimp only [List.head?_cons]
  -- The character behind the blanks starts neither a comment nor a new line.
  split
  · next heq => exact absurd (Option.some.inj heq) hcomment
  · next heq => exact absurd (Option.some.inj heq) hnewline
  · next heq => exact absurd (Option.some.inj heq) hreturn
  · rfl

/-- There is no gap where a character that ends one stands. -/
theorem run_gap_nil {c : Char} (h : EndsGap c) : gap.run (c :: cs) = .ok ((), c :: cs) :=
  (run_bind_of_ok (run_get _)).trans (run_gapLoop (List.forall_mem_nil _) h)

/-- A line end and an indentation. -/
theorem run_gap_lineBreak {c : Char} (indent : Nat) (h : EndsGap c) :
    gap.run ('\n' :: (List.replicate indent ' ' ++ c :: cs)) = .ok ((), c :: cs) := by
  refine (run_bind_of_ok (run_get _)).trans ?_
  have hblanks : blanks.run ('\n' :: (List.replicate indent ' ' ++ c :: cs)) = .ok ([], _) :=
    run_blanks_nil (by simp [isBlank])
  refine (run_bind_of_ok hblanks).trans ((run_bind_of_ok (run_peek _)).trans ?_)
  refine (run_bind_of_ok (run_newline _)).trans ?_
  refine run_gapLoop (fun d hd => ?_) h
  rw [List.eq_of_mem_replicate hd]
  rfl

end

end TypedSql.Toml
