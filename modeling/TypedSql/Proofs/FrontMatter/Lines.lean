import Mathlib.Data.List.TakeWhile
import TypedSql.FrontMatter

namespace TypedSql.FrontMatter

open Text

/-! # Lines of a front matter

A line ends at a line feed. The carriage return that may stand before it is a blank at the end of
the line, and neither a delimiter nor a declaration is changed by such a blank. What the lines of a
block declare is told here line by line.
-/

section

variable {line rest s : List Char} {c : Char}

/-! ## Where a line ends -/

/-- A line ends at the first line feed. -/
theorem breakLine_append_cons (h : '\n' ∉ line) (rest : List Char) :
    breakLine (line ++ '\n' :: rest) = (line, rest) := by
  induction line with
  | nil => simp [breakLine]
  | cons c line ih =>
      rw [List.mem_cons, not_or] at h
      rw [List.cons_append, breakLine, if_neg (Ne.symm h.1), ih h.2]

/-- A text without line feeds is one line. -/
theorem breakLine_of_not_mem (h : '\n' ∉ line) : breakLine line = (line, []) := by
  induction line with
  | nil => rfl
  | cons c line ih =>
      rw [List.mem_cons, not_or] at h
      rw [breakLine, if_neg (Ne.symm h.1), ih h.2]

/-- After a line comes a line feed and the text that is left, or the end of the text. -/
def LeftAfter (body : List Char) (after : List Char) : Prop :=
  after = '\n' :: body ∨ after = [] ∧ body = []

/-- A line ends where the text after it starts with a line feed or is at its end. -/
theorem breakLine_append {after body : List Char} (h : '\n' ∉ line)
    (hafter : LeftAfter body after) :
    breakLine (line ++ after) = (line, body) := by
  rcases hafter with rfl | ⟨rfl, rfl⟩
  · exact breakLine_append_cons h body
  · rw [List.append_nil, breakLine_of_not_mem h]

/-- The first line holds no line feed, and the rest of the text comes after it. -/
theorem breakLine_spec (s : List Char) :
    '\n' ∉ (breakLine s).1 ∧
      ∃ after, s = (breakLine s).1 ++ after ∧ LeftAfter (breakLine s).2 after := by
  induction s with
  | nil => exact ⟨by simp [breakLine], [], rfl, .inr ⟨rfl, rfl⟩⟩
  | cons c s ih =>
      by_cases hc : c = '\n'
      · subst hc
        exact ⟨by simp [breakLine], '\n' :: s, by simp [breakLine], .inl (by simp [breakLine])⟩
      · obtain ⟨hline, after, hs, hafter⟩ := ih
        rw [breakLine, if_neg hc]
        refine ⟨?_, after, congrArg (c :: ·) hs, hafter⟩
        rw [List.mem_cons, not_or]
        exact ⟨Ne.symm hc, hline⟩

/-! ## Blanks at the end of a line -/

/-- A blank at the end is trimmed. -/
theorem trimRight_append_blank (hc : isBlank c = true) (s : List Char) :
    trimRight (s ++ [c]) = trimRight s := by
  rw [trimRight, List.reverse_concat, List.dropWhile_cons_of_pos hc, trimRight]

/-- A blank at the end makes no difference to a trimmed text. -/
theorem trim_append_blank (hc : isBlank c = true) (s : List Char) : trim (s ++ [c]) = trim s := by
  unfold trim trimLeft
  rw [List.dropWhile_append]
  split
  · next hempty =>
      -- Without anything but blanks, the last one goes with the others.
      rw [List.dropWhile_cons_of_pos hc, List.isEmpty_iff.1 hempty]
      rfl
  · exact trimRight_append_blank hc _

/-- What is left of a text is the part before its last blanks, and ends in no blank. -/
theorem trimRight_eq_iff {t : List Char} :
    trimRight s = t ↔ (∃ blanks, (∀ c ∈ blanks, isBlank c = true) ∧ s = t ++ blanks) ∧
      ∀ c ∈ t.getLast?, isBlank c = false := by
  rw [trimRight, List.reverse_eq_iff, ← List.head?_reverse]
  constructor
  · intro h
    refine ⟨⟨(s.reverse.takeWhile isBlank).reverse, ?_, ?_⟩, ?_⟩
    · intro c hc
      exact List.mem_takeWhile_imp (List.mem_reverse.1 hc)
    · have hs := List.takeWhile_append_dropWhile (p := isBlank) (l := s.reverse)
      rw [h] at hs
      simpa using (congrArg List.reverse hs).symm
    · intro c hc
      have hhead := List.head?_dropWhile_not isBlank s.reverse
      rw [h, Option.mem_def.1 hc] at hhead
      exact hhead
  · rintro ⟨⟨blanks, hblanks, rfl⟩, hend⟩
    have hall : ∀ c ∈ blanks.reverse, isBlank c = true := fun c hc =>
      hblanks c (List.mem_reverse.1 hc)
    rw [List.reverse_append, List.dropWhile_append_of_pos hall]
    cases ht : t.reverse with
    | nil => rfl
    | cons last front =>
        rw [ht] at hend
        exact List.dropWhile_cons_of_neg (by simp [hend last rfl])

/-- A text ends in the character that is taken off, or stays. -/
theorem dropTrailing_cases (c : Char) (s : List Char) :
    s = dropTrailing c s ++ [c] ∨ dropTrailing c s = s := by
  unfold dropTrailing
  cases hs : s.reverse with
  | nil => exact .inr (by simp [dropLeading, List.reverse_eq_nil_iff.1 hs])
  | cons last front =>
      have htext : s = front.reverse ++ [last] := by simpa using congrArg List.reverse hs
      by_cases hlast : last = c
      · exact .inl (by simp [dropLeading, hlast, htext])
      · exact .inr (by simp [dropLeading, hlast, htext])

/-- What does not depend on a last character does not depend on whether it is taken off. -/
theorem apply_dropTrailing {β : Type} {f : List Char → β} (h : ∀ s, f (s ++ [c]) = f s)
    (s : List Char) : f (dropTrailing c s) = f s := by
  rcases dropTrailing_cases c s with hs | hs
  · calc
      f (dropTrailing c s) = f (dropTrailing c s ++ [c]) := (h _).symm
      _ = f s := by rw [← hs]
  · rw [hs]

/-- A blank at the end of a line makes no difference to whether it delimits. -/
theorem isDelimiter_dropTrailing (hc : isBlank c = true) (s : List Char) :
    isDelimiter (dropTrailing c s) = isDelimiter s := by
  refine apply_dropTrailing (fun s => ?_) s
  rw [isDelimiter, isDelimiter, trimRight_append_blank hc]

/-- A blank at the end of a line makes no difference to what it declares. -/
theorem declaration?_dropTrailing (hc : isBlank c = true) (s : List Char) :
    declaration? (dropTrailing c s) = declaration? s := by
  refine apply_dropTrailing (fun s => ?_) s
  rw [declaration?, declaration?, trim_append_blank hc]

end

/-! ## What a line declares -/

/-- A value between two quotes of the same kind goes without them, once; any other stays. -/
inductive Unquoted : List Char → List Char → Prop
  | quoted {quote : Char} (inner : List Char) (hquote : quote = '\x22' ∨ quote = '\x27') :
      Unquoted (quote :: (inner ++ [quote])) inner
  | bare {value : List Char} (h : ∀ quote inner, quote = '\x22' ∨ quote = '\x27' →
      value ≠ quote :: (inner ++ [quote])) : Unquoted value value

/-- A line declares a value under a key. Both are trimmed, and stand before and after the first
colon of a line that is no comment. -/
inductive Declares (line : List Char) : String → String → Prop
  | intro {key value inner : List Char} (hline : trim line = key ++ ':' :: value)
      (hcomment : (trim line).head? ≠ some '#') (hkey : ':' ∉ key)
      (hvalue : Unquoted (trim value) inner) :
      Declares line (String.ofList (trim key)) (String.ofList inner)

/-- A line declares nothing: it is blank, a comment, or has no colon. -/
def DeclaresNothing (line : List Char) : Prop :=
  trim line = [] ∨ (trim line).head? = some '#' ∨ ':' ∉ trim line

/-- The declarations of lines, in order. -/
inductive Declared : List (List Char) → List (String × String) → Prop
  | nil : Declared [] []
  | skip {line : List Char} {lines : List (List Char)} {entries : List (String × String)}
      (h : DeclaresNothing line) (hrest : Declared lines entries) : Declared (line :: lines) entries
  | entry {line : List Char} {lines : List (List Char)} {key value : String}
      {entries : List (String × String)} (h : Declares line key value)
      (hrest : Declared lines entries) : Declared (line :: lines) ((key, value) :: entries)

/-- Quotes are taken off a value that has one at each end. -/
theorem unquoteWith_eq_some {quote : Char} {value inner : List Char} :
    unquoteWith quote value = some inner ↔ value = quote :: (inner ++ [quote]) := by
  cases value with
  | nil => simp [unquoteWith]
  | cons first text =>
      rw [unquoteWith, Option.ite_none_right_eq_some, Bool.and_eq_true, decide_eq_true_eq,
        decide_eq_true_eq, List.getLast?_eq_some_iff, Option.some.injEq, List.cons.injEq]
      constructor
      · rintro ⟨⟨rfl, front, rfl⟩, hinner⟩
        exact ⟨rfl, by simpa using hinner⟩
      · rintro ⟨rfl, rfl⟩
        exact ⟨⟨rfl, inner, rfl⟩, by simp⟩

/-- A value is unquoted as it is said to be. -/
theorem unquoted_unquote (value : List Char) : Unquoted value (unquote value) := by
  unfold unquote
  cases hdouble : unquoteWith '\x22' value with
  | some inner =>
      rw [unquoteWith_eq_some] at hdouble
      subst hdouble
      exact .quoted inner (.inl rfl)
  | none =>
      cases hsingle : unquoteWith '\x27' value with
      | some inner =>
          rw [unquoteWith_eq_some] at hsingle
          subst hsingle
          exact .quoted inner (.inr rfl)
      | none =>
          refine .bare ?_
          rintro quote inner (rfl | rfl) hvalue
          · simp [unquoteWith_eq_some.2 hvalue] at hdouble
          · simp [unquoteWith_eq_some.2 hvalue] at hsingle

/-- There is one way to unquote a value. -/
theorem Unquoted.unique {value inner other : List Char} (h : Unquoted value inner)
    (h' : Unquoted value other) : inner = other := by
  cases h with
  | quoted inner hquote =>
      generalize hvalue : _ :: (inner ++ [_]) = value at h'
      cases h' with
      | quoted other hquote' =>
          obtain ⟨rfl, htext⟩ := List.cons.inj hvalue
          exact List.append_cancel_right htext
      | bare hbare => exact absurd hvalue.symm (hbare _ _ hquote)
  | bare hbare =>
      cases h' with
      | quoted other hquote' => exact absurd rfl (hbare _ _ hquote')
      | bare => rfl

/-- A line is split at its first colon. -/
theorem splitColon_append {key : List Char} (h : ':' ∉ key) (value : List Char) :
    splitColon (key ++ ':' :: value) = some (key, value) := by
  have hkey : ∀ c ∈ key, decide (c ≠ ':') = true := by
    intro c hc
    simpa using fun heq : c = ':' => h (heq ▸ hc)
  rw [splitColon, List.dropWhile_append_of_pos hkey, List.takeWhile_append_of_pos hkey]
  simp

/-- A line without a colon is not split. -/
theorem splitColon_of_not_mem {line : List Char} (h : ':' ∉ line) : splitColon line = none := by
  have hdrop : line.dropWhile (· ≠ ':') = [] := by
    rw [List.dropWhile_eq_nil_iff]
    intro c hc
    simpa using fun heq : c = ':' => h (heq ▸ hc)
  rw [splitColon, hdrop]

/-- A comment declares nothing. -/
theorem declaration?_of_comment {line : List Char} (h : (trim line).head? = some '#') :
    declaration? line = none := by
  obtain ⟨rest, hline⟩ := List.head?_eq_some_iff.1 h
  rw [declaration?, hline]
  rfl

/-- Any other line declares what stands before its first colon to be what stands after it. -/
theorem declaration?_of_not_comment {line : List Char} (h : (trim line).head? ≠ some '#') :
    declaration? line = (splitColon (trim line)).map fun (key, value) =>
      (String.ofList (trim key), String.ofList (unquote (trim value))) := by
  rw [declaration?]
  cases hline : trim line with
  | nil => rfl
  | cons first rest =>
      rw [hline] at h
      have hfirst : first ≠ '#' := by simpa using h
      dsimp only
      rw [if_neg hfirst]

/-- What a line is to declare is read from it. -/
theorem Declares.declaration? {line : List Char} {key value : String}
    (h : Declares line key value) : declaration? line = some (key, value) := by
  cases h with
  | @intro front back inner hline hcomment hkey hvalue =>
      have hinner : unquote (trim back) = inner := (unquoted_unquote _).unique hvalue
      rw [declaration?_of_not_comment hcomment, hline, splitColon_append hkey]
      simp only [Option.map_some, hinner]

/-- Nothing is read from a line that is to declare nothing. -/
theorem DeclaresNothing.declaration? {line : List Char} (h : DeclaresNothing line) :
    declaration? line = none := by
  rcases h with hblank | hcomment | hcolon
  · rw [FrontMatter.declaration?, hblank]
  · exact declaration?_of_comment hcomment
  · by_cases hcomment : (trim line).head? = some '#'
    · exact declaration?_of_comment hcomment
    · rw [declaration?_of_not_comment hcomment, splitColon_of_not_mem hcolon, Option.map_none]

/-- A line declares one value or nothing. -/
theorem declares_or_nothing (line : List Char) :
    (∃ key value, Declares line key value) ∨ DeclaresNothing line := by
  by_cases hcomment : (trim line).head? = some '#'
  · exact .inr (.inr (.inl hcomment))
  · by_cases hcolon : ':' ∈ trim line
    · obtain ⟨key, value, hline, hkey⟩ := List.eq_append_cons_of_mem hcolon
      exact .inl ⟨_, _, .intro hline hcomment hkey (unquoted_unquote _)⟩
    · exact .inr (.inr (.inr hcolon))

theorem declares_iff {line : List Char} {key value : String} :
    Declares line key value ↔ declaration? line = some (key, value) := by
  constructor
  · exact Declares.declaration?
  · intro h
    rcases declares_or_nothing line with ⟨key', value', h'⟩ | hnothing
    · have hsame := h'.declaration?
      rw [h] at hsame
      cases hsame
      exact h'
    · rw [hnothing.declaration?] at h
      cases h

/-- Lines declare what is read from them one by one. -/
theorem declared_iff {lines : List (List Char)} {entries : List (String × String)} :
    Declared lines entries ↔ entries = lines.filterMap declaration? := by
  constructor
  · intro h
    induction h with
    | nil => rfl
    | skip h _ ih => rw [ih, List.filterMap_cons_none h.declaration?]
    | entry h _ ih => rw [ih, List.filterMap_cons_some h.declaration?]
  · rintro rfl
    induction lines with
    | nil => exact .nil
    | cons line lines ih =>
        rcases declares_or_nothing line with ⟨key, value, h⟩ | h
        · rw [List.filterMap_cons_some h.declaration?]
          exact .entry h ih
        · rw [List.filterMap_cons_none h.declaration?]
          exact .skip h ih

end TypedSql.FrontMatter
