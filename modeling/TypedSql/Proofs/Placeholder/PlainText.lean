import Mathlib.Data.List.Chain
import Mathlib.Data.List.TakeWhile
import TypedSql.Placeholder
import TypedSql.Proofs.Outcome

namespace TypedSql.Placeholder

open Text

/-! # Placeholders in plain text

A body that has no tokens is scanned as it is. A placeholder is there for every colon that does not
follow another colon directly and that has a word directly after it. The scan takes such a colon
together with the character before it, and this character may not belong to the placeholder found
last: of placeholders that follow each other without a gap it finds the first and leaves the next.
-/

/-! ## Every place of a text -/

/-- A placeholder of a text: the place of its colon and the word after it. -/
structure Mention where
  start : Nat
  word : List Char
  deriving DecidableEq, Repr

namespace Mention

/-- The place after the word. -/
def stop (m : Mention) : Nat := m.start + 1 + m.word.length

def name (m : Mention) : String := String.ofList m.word

end Mention

/-- The word characters after a place of a text. -/
def wordBehind (s : List Char) (i : Nat) : List Char := (s.drop (i + 1)).takeWhile isWordChar

/-- The placeholder at a place of a text: a colon stands there, none stands before it, and a word
follows. -/
def mentionAt? (s : List Char) (i : Nat) : Option Mention :=
  if s[i]? = some ':' ∧ (s.take i).getLast? ≠ some ':' ∧ wordBehind s i ≠ [] then
    some ⟨i, wordBehind s i⟩
  else none

/-- The placeholders of a text in order. -/
def mentions (s : List Char) : List Mention := (List.range s.length).filterMap (mentionAt? s)

/-- Of placeholders in order, those that do not start where the one taken before them ends; the
first one is taken unless it starts where `last` tells. -/
def apart : Option Nat → List Mention → List Mention
  | _, [] => []
  | last, m :: rest =>
      if last = some m.start then apart none rest else m :: apart (some m.stop) rest

/-- No placeholder starts where the one before it ends. -/
def Parted (ms : List Mention) : Prop := ms.IsChain fun m next => m.stop ≠ next.start

instance (ms : List Mention) : Decidable (Parted ms) :=
  inferInstanceAs (Decidable (ms.IsChain fun m next => m.stop ≠ next.start))

section

variable {last : Option Nat} {ms : List Mention}

/-- The mentions that are told apart stay in their order. -/
theorem apart_sublist (last : Option Nat) (ms : List Mention) : (apart last ms).Sublist ms := by
  fun_induction apart last ms with
  | case1 => exact .slnil
  | case2 m rest ih => exact ih.cons m
  | case3 last m rest h ih => exact ih.cons_cons m

/-- Where the first placeholder may be taken, it does not matter what came before. -/
theorem apart_eq_apart_none (h : ∀ m ∈ ms.head?, last ≠ some m.start) :
    apart last ms = apart none ms := by
  cases ms with
  | nil => rfl
  | cons m rest =>
      have hfirst : last ≠ some m.start := h m rfl
      rw [apart, if_neg hfirst, apart, if_neg (by simp)]

/-- All mentions are told apart when none touches the one before. -/
theorem apart_eq_self_iff :
    apart last ms = ms ↔ (∀ m ∈ ms.head?, last ≠ some m.start) ∧ Parted ms := by
  unfold Parted
  induction ms generalizing last with
  | nil => simp [apart]
  | cons m rest ih =>
      rw [apart, List.isChain_cons]
      by_cases hlast : last = some m.start
      · rw [if_pos hlast]
        constructor
        · intro h
          -- One placeholder less cannot be all of them.
          have hlength := (apart_sublist none rest).length_le
          rw [h, List.length_cons] at hlength
          omega
        · rintro ⟨hfirst, -⟩
          exact absurd hlast (hfirst m rfl)
      · rw [if_neg hlast, List.cons.injEq, ih]
        simp [hlast]

/-- All names come exactly where no placeholder is left. -/
theorem names_apart_iff :
    (apart none ms).map Mention.name = ms.map Mention.name ↔ Parted ms := by
  have hself : apart none ms = ms ↔ Parted ms := by
    rw [apart_eq_self_iff]
    simp
  rw [← hself]
  constructor
  · intro h
    have hlength := congrArg List.length h
    rw [List.length_map, List.length_map] at hlength
    exact (apart_sublist none ms).eq_of_length hlength
  · intro h
    rw [h]

end

/-! ## From one place to the next -/

section

variable {front s rest word left : List Char} {c : Char}

/-- The placeholders of a text behind a front part. -/
def mentionsBehind (front s : List Char) : List Mention :=
  (List.range' front.length s.length).filterMap (mentionAt? (front ++ s))

/-- Mentions are looked for from the front of a text. -/
theorem mentions_eq (s : List Char) : mentions s = mentionsBehind [] s := by
  rw [mentions, mentionsBehind, List.range_eq_range']
  rfl

/-- A mention is at a colon with a word after it and no colon before it. -/
theorem mentionAt?_append (front : List Char) (c : Char) (rest : List Char) :
    mentionAt? (front ++ c :: rest) front.length =
      if c = ':' ∧ front.getLast? ≠ some ':' ∧ rest.takeWhile isWordChar ≠ [] then
        some ⟨front.length, rest.takeWhile isWordChar⟩
      else none := by
  have hword : wordBehind (front ++ c :: rest) front.length = rest.takeWhile isWordChar := by
    simp [wordBehind]
  simp [mentionAt?, hword]

/-- The mentions behind a place are the one at it and those behind the next place. -/
theorem mentionsBehind_cons (front : List Char) (c : Char) (rest : List Char) :
    mentionsBehind front (c :: rest) =
      (mentionAt? (front ++ c :: rest) front.length).toList ++
        mentionsBehind (front ++ [c]) rest := by
  have hlength : (front ++ [c]).length = front.length + 1 := List.length_append
  rw [mentionsBehind, mentionsBehind, List.length_cons, List.range'_succ, hlength,
    List.append_assoc, List.singleton_append]
  cases h : mentionAt? (front ++ c :: rest) front.length with
  | none => rw [List.filterMap_cons_none h]; rfl
  | some m => rw [List.filterMap_cons_some h]; rfl

/-- Mentions behind a place start there or later. -/
theorem start_of_mem_mentionsBehind {m : Mention} (h : m ∈ mentionsBehind front s) :
    front.length ≤ m.start := by
  obtain ⟨i, hi, hm⟩ := List.mem_filterMap.1 h
  have hstart : m.start = i := by
    unfold mentionAt? at hm
    split at hm
    · cases hm
      rfl
    · cases hm
  rw [hstart]
  exact (List.mem_range'_1.1 hi).1

/-- A place without a placeholder is passed over. -/
theorem mentionsBehind_skip
    (h : ¬ (c = ':' ∧ front.getLast? ≠ some ':' ∧ rest.takeWhile isWordChar ≠ [])) :
    mentionsBehind front (c :: rest) = mentionsBehind (front ++ [c]) rest := by
  rw [mentionsBehind_cons, mentionAt?_append, if_neg h]
  rfl

/-- No placeholder starts inside a word. -/
theorem mentionsBehind_word (front : List Char) (h : ∀ c ∈ word, isWordChar c = true)
    (left : List Char) :
    mentionsBehind front (word ++ left) = mentionsBehind (front ++ word) left := by
  induction word generalizing front with
  | nil => simp
  | cons c word ih =>
      have hc : c ≠ ':' := by
        rintro rfl
        exact absurd (h ':' List.mem_cons_self) (by decide +kernel)
      have hrest := ih (front ++ [c]) fun x hx => h x (List.mem_cons_of_mem c hx)
      rw [List.cons_append, mentionsBehind_skip (by simp [hc]), hrest, List.append_assoc]
      rfl

/-- A word after a colon is the longest one that is not empty. -/
theorem exists_of_wordAfter? (h : wordAfter? s = some (word, left)) :
    ∃ rest, s = ':' :: rest ∧ word = rest.takeWhile isWordChar ∧
      left = rest.dropWhile isWordChar ∧ word ≠ [] := by
  unfold wordAfter? at h
  split at h
  · next rest =>
      split at h
      · cases h
      · next hword =>
          cases h
          exact ⟨rest, rfl, rfl, rfl, by simpa using hword⟩
  · cases h

theorem wordAfter?_cons_eq_none (h : wordAfter? (c :: rest) = none) :
    ¬ (c = ':' ∧ rest.takeWhile isWordChar ≠ []) := by
  rintro ⟨rfl, hword⟩
  simp [wordAfter?, hword] at h

/-- A colon with a word after it is a placeholder if no other colon stands before it. -/
theorem mentionsBehind_of_wordAfter? (h : wordAfter? s = some (word, left))
    (hfront : front.getLast? ≠ some ':') :
    mentionsBehind front s =
      ⟨front.length, word⟩ :: mentionsBehind (front ++ ':' :: word) left := by
  obtain ⟨rest, rfl, rfl, rfl, hword⟩ := exists_of_wordAfter? h
  have hall : ∀ c ∈ rest.takeWhile isWordChar, isWordChar c = true := fun c hc =>
    List.mem_takeWhile_imp hc
  have hleft := mentionsBehind_word (front ++ [':']) hall (rest.dropWhile isWordChar)
  rw [List.takeWhile_append_dropWhile, List.append_assoc] at hleft
  rw [mentionsBehind_cons, mentionAt?_append, if_pos ⟨rfl, hfront, hword⟩, hleft]
  rfl

/-! ## What the scan finds -/

/-- A place where nothing can be taken is passed over, with the placeholder that starts there. -/
theorem apart_mentionsBehind_cons (front : List Char) (c : Char) (rest : List Char) :
    apart (some front.length) (mentionsBehind front (c :: rest)) =
      apart none (mentionsBehind (front ++ [c]) rest) := by
  rw [mentionsBehind_cons, mentionAt?_append]
  split
  · exact if_pos rfl
  · refine apart_eq_apart_none fun m hm => ?_
    have hstart := start_of_mem_mentionsBehind (List.mem_of_mem_head? hm)
    rw [List.length_append, List.length_singleton] at hstart
    intro heq
    have heq := Option.some.inj heq
    omega

/-- Where no placeholder starts, it does not matter whether one could be taken. -/
theorem apart_mentionsBehind_none
    (h : front.getLast? = some ':' ∨ wordAfter? s = none) :
    apart none (mentionsBehind front s) = apart (some front.length) (mentionsBehind front s) := by
  cases s with
  | nil => rfl
  | cons c rest =>
      have hnone : ¬ (c = ':' ∧ front.getLast? ≠ some ':' ∧ rest.takeWhile isWordChar ≠ []) := by
        rintro ⟨hc, hfront, hword⟩
        rcases h with h | h
        · exact hfront h
        · exact wordAfter?_cons_eq_none h ⟨hc, hword⟩
      rw [apart_mentionsBehind_cons, mentionsBehind_skip hnone]

/-- A placeholder that is taken is followed by those behind it. -/
theorem apart_of_wordAfter? (h : wordAfter? s = some (word, left))
    (hfront : front.getLast? ≠ some ':') :
    apart none (mentionsBehind front s) =
      ⟨front.length, word⟩ ::
        apart (some (front ++ ':' :: word).length)
          (mentionsBehind (front ++ ':' :: word) left) := by
  have hstop : (Mention.mk front.length word).stop = (front ++ ':' :: word).length := by
    simp only [Mention.stop, List.length_append, List.length_cons]
    omega
  rw [mentionsBehind_of_wordAfter? h hfront, apart, if_neg (by simp), hstop]

/-- What is left after a word is no longer than the text. -/
theorem length_left_le (h : wordAfter? s = some (word, left)) : left.length ≤ s.length := by
  obtain ⟨rest, rfl, -, rfl, -⟩ := exists_of_wordAfter? h
  have hlength := (List.dropWhile_suffix (l := rest) isWordChar).length_le
  rw [List.length_cons]
  omega

/-- The scan finds the placeholders that are apart. It is always at a place where it can take none:
where the one found last ends, or behind a character that it has passed over. -/
theorem names_scanText {fuel : Nat} (front : List Char) (hfuel : s.length ≤ fuel) :
    (scanText fuel s).filterMap Fragment.name? =
      (apart (some front.length) (mentionsBehind front s)).map Mention.name := by
  induction fuel generalizing front s with
  | zero =>
      cases List.length_eq_zero_iff.1 (Nat.le_zero.1 hfuel)
      rfl
  | succ fuel ih =>
      cases s with
      | nil => rfl
      | cons c rest =>
          have hrest : rest.length ≤ fuel := Nat.le_of_succ_le_succ hfuel
          rw [apart_mentionsBehind_cons, scanText]
          split
          · next word left hfound =>
              -- A placeholder is taken, and the scan goes on where it ends.
              obtain ⟨hc, hword⟩ : c ≠ ':' ∧ wordAfter? rest = some (word, left) := by
                simpa using hfound
              have hleft : left.length ≤ fuel := (length_left_le hword).trans hrest
              rw [apart_of_wordAfter? hword (by simpa using hc), List.map_cons, ← ih _ hleft]
              rfl
          · next hnone =>
              -- The character is passed over: no placeholder can start behind it.
              have hhere : (front ++ [c]).getLast? = some ':' ∨ wordAfter? rest = none := by
                by_cases hc : c = ':'
                · exact .inl (by simp [hc])
                · exact .inr (by simpa [hc] using hnone)
              rw [apart_mentionsBehind_none hhere, ← ih _ hrest]
              rfl

/-- The scan finds the mentions that are told apart. -/
theorem names_ofText (s : List Char) :
    (ofText s).filterMap Fragment.name? = (apart none (mentions s)).map Mention.name := by
  rw [mentions_eq, ofText]
  split
  · next word left h =>
      rw [apart_of_wordAfter? h (by simp), List.map_cons, ← names_scanText _ le_rfl]
      rfl
  · next h => rw [apart_mentionsBehind_none (.inr h), ← names_scanText _ le_rfl]

end

/-- A body without tokens has the names of its placeholders that are apart. These are all of its
placeholders exactly when none of them starts where the one before it ends. -/
theorem occurrences_plainText {d : Dialect} {body : String} {e : Lexer.LexError}
    (h : Lexer.tokens d body = .error e) :
    occurrences d body = (apart none (mentions body.toList)).map Mention.name ∧
      (occurrences d body = (mentions body.toList).map Mention.name ↔
        Parted (mentions body.toList)) := by
  have hnames : occurrences d body = (apart none (mentions body.toList)).map Mention.name := by
    rw [occurrences, h]
    exact names_ofText body.toList
  refine ⟨hnames, ?_⟩
  rw [hnames]
  exact names_apart_iff

/-- Placeholders at the start, behind a cast and behind a word, all apart. -/
theorem occurrences_plainText_open :
    (∃ e, Lexer.tokens .postgres ":a, b:c ::d 'open :e" = .error e) ∧
      Parted (mentions ":a, b:c ::d 'open :e".toList) ∧
      occurrences .postgres ":a, b:c ::d 'open :e" = ["a", "c", "e"] := by
  obtain ⟨e, he⟩ : ∃ e, Lexer.tokens .postgres ":a, b:c ::d 'open :e" = .error e :=
    Outcome.exists_eq_error (by decide +kernel)
  have hparted : Parted (mentions ":a, b:c ::d 'open :e".toList) := by decide +kernel
  refine ⟨⟨e, he⟩, hparted, ?_⟩
  rw [(occurrences_plainText he).2.2 hparted]
  decide +kernel

/-- The second of two placeholders without a gap is left. -/
theorem occurrences_plainText_touching :
    (∃ e, Lexer.tokens .postgres "select :a:b, 'open" = .error e) ∧
      (mentions "select :a:b, 'open".toList).map Mention.name = ["a", "b"] ∧
      occurrences .postgres "select :a:b, 'open" = ["a"] :=
  ⟨Outcome.exists_eq_error (by decide +kernel), by decide +kernel, by decide +kernel⟩

end TypedSql.Placeholder
