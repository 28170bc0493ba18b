import Mathlib.Algebra.GroupWithZero.Nat
import TypedSql.Proofs.Outcome
import TypedSql.Token.Lexer

namespace TypedSql.Lexer

open Outcome

/-! # Contents between quotes

What the readers of strings and delimited names take off a text, and when a content that is written
between its quotes again is read as itself. Two facts are shown of each reader:

* `Taken`: it takes at least as much room as its content and the closing quotes need, and one more
  for every special character of the content, since such a character has to be escaped;
* a content without special characters is read back up to its closing quotes.
-/

/-! ## Room -/

/-- The room of a character. An `x` counts twice, so that `0x1` has the room of `X'1'`. -/
def charWeight (c : Char) : Nat := if c = 'x' then 2 else 1

/-- The room of a text. -/
def weight (s : List Char) : Nat := (s.map charWeight).sum

/-- No character is written in no place. -/
theorem one_le_charWeight (c : Char) : 1 ≤ charWeight c := by
  unfold charWeight
  split <;> omega

/-- A character is written in at most two places. -/
theorem charWeight_le_two (c : Char) : charWeight c ≤ 2 := by
  unfold charWeight
  split <;> omega

@[simp] theorem weight_nil : weight [] = 0 := rfl

@[simp] theorem weight_cons (c : Char) (s : List Char) :
    weight (c :: s) = charWeight c + weight s := by
  simp [weight]

@[simp] theorem weight_append (s t : List Char) : weight (s ++ t) = weight s + weight t := by
  simp [weight]

/-- A text needs at least one place for each of its characters. -/
theorem length_le_weight (s : List Char) : s.length ≤ weight s := by
  induction s with
  | nil => simp
  | cons c s ih =>
      have hc := one_le_charWeight c
      simp only [List.length_cons, weight_cons]
      omega

/-- Two ends of a text that take the same room are the same. -/
theorem eq_of_suffix_of_weight_eq {l a b : List Char} (ha : a <:+ l) (hb : b <:+ l)
    (h : weight a = weight b) : a = b := by
  have shorter : ∀ {a b : List Char}, a <:+ b → weight a = weight b → a = b := by
    rintro a _ ⟨u, rfl⟩ h
    have hu := length_le_weight u
    have hnil : u.length = 0 := by simp at h; omega
    simp [List.length_eq_zero_iff.1 hnil]
  rcases List.suffix_or_suffix_of_suffix ha hb with hab | hba
  · exact shorter hab h
  · exact (shorter hba h.symm).symm

/-- A content was read off the front of `s`: what was taken has room for the content, for `extra`
characters, and once more for each of its special characters. -/
def Taken (special : Char → Bool) (extra : Nat) (s content left : List Char) : Prop :=
  ∃ u, s = u ++ left ∧ weight content + content.countP special + extra ≤ weight u

namespace Taken

variable {special : Char → Bool} {extra : Nat} {s content left : List Char}

/-- Nothing is taken up to a character that closes at once. -/
theorem nil (c : Char) (left : List Char) : Taken special 1 (c :: left) [] left := by
  have hc := one_le_charWeight c
  exact ⟨[c], rfl, by simpa using hc⟩

/-- Two characters have room for any character, a special one included. -/
theorem pair (x : Char) {v : List Char} (hv : 2 ≤ v.length) (hx : special x = true → x ≠ 'x')
    (h : Taken special extra s content left) :
    Taken special extra (v ++ s) (x :: content) left := by
  rcases h with ⟨u, rfl, hu⟩
  refine ⟨v ++ u, by simp, ?_⟩
  have hroom : charWeight x + (if special x then 1 else 0) ≤ 2 := by
    by_cases hs : special x
    · simp [charWeight, hx hs, hs]
    · simpa [hs] using charWeight_le_two x
  have hweight := length_le_weight v
  simp only [weight_cons, weight_append, List.countP_cons]
  omega

/-- A character that is not special stands for itself. -/
theorem single (x : Char) (hx : special x = false) (h : Taken special extra s content left) :
    Taken special extra (x :: s) (x :: content) left := by
  rcases h with ⟨u, rfl, hu⟩
  refine ⟨x :: u, by simp, ?_⟩
  simp only [weight_cons, List.countP_cons, hx]
  simp only [Bool.false_eq_true, if_false]
  omega

/-- Where no room is left over, the content has no special characters. -/
theorem not_special (closing : List Char) (hc : closing.length ≤ extra)
    (hw : weight closing = closing.length)
    (h : Taken special extra (content ++ (closing ++ left)) content left) :
    ∀ x ∈ content, special x = false := by
  rcases h with ⟨u, hu, hroom⟩
  have htaken : u = content ++ closing := by
    have h' : (content ++ closing) ++ left = u ++ left := by simpa using hu
    exact (List.append_cancel_right h').symm
  have hcount : content.countP special = 0 := by
    rw [htaken, weight_append] at hroom
    omega
  intro x hx
  have hnot := List.countP_eq_zero.1 hcount x hx
  simpa using hnot

/-- What is taken up to a quote holds no character that is written in another way. -/
theorem not_special_of_quote {quote : Char} (hq : quote ≠ 'x')
    (h : Taken special 1 (content ++ quote :: left) content left) :
    ∀ x ∈ content, special x = false := by
  have hw : weight [quote] = [quote].length := by simp [charWeight, hq]
  exact not_special [quote] (Nat.le_refl 1) hw h

end Taken

/-! ## Strings with one kind of escape -/

/-- Whether a character of a content is the backslash of an escape. -/
def opensEscape (escapes : Bool) (c : Char) : Bool := c == '\\' && escapes

/-- The characters of a content that have to be escaped: its quote, and the backslash where it
escapes others. -/
def special (quote : Char) (escapes : Bool) (c : Char) : Bool :=
  c == quote || opensEscape escapes c

/-- A character that is put in front of a content is the first one of it. -/
theorem map_cons_eq_some {x : Char} {o : Option (List Char × List Char)} {content left : List Char}
    (h : (o.map fun (s, left) => (x :: s, left)) = some (content, left)) :
    ∃ tail, o = some (tail, left) ∧ content = x :: tail := by
  rcases Option.map_eq_some_iff.1 h with ⟨⟨tail, left'⟩, ho, heq⟩
  cases heq
  exact ⟨tail, ho, rfl⟩

section

variable {quote : Char} {escapes : Bool} {s content left after : List Char}

/-- The mark of digits of base sixteen is not written in another way itself. -/
theorem ne_x_of_special (hq : quote ≠ 'x') {c : Char} (h : special quote escapes c = true) :
    c ≠ 'x' := by
  rintro rfl
  simp only [special, opensEscape, Bool.or_eq_true, beq_iff_eq, Bool.and_eq_true] at h
  rcases h with h | ⟨h, _⟩
  · exact hq h.symm
  · exact absurd h (by decide)

/-- The content of a string is taken from the text up to its quote, with room for every escape. -/
theorem stringContent_taken (hq : quote ≠ 'x')
    (h : stringContent quote escapes s = some (content, left)) :
    Taken (special quote escapes) 1 s content left := by
  -- A doubled quote and an escape take two characters for one, whatever comes out of them.
  fun_induction stringContent quote escapes s generalizing content left with
  | case1 => simp at h
  | case2 =>
      cases h
      exact Taken.nil quote []
  | case3 => simp at h
  | case4 rest ih =>
      rcases map_cons_eq_some h with ⟨tail, htail, rfl⟩
      exact (ih htail).pair quote (v := [quote, quote]) (by simp) (ne_x_of_special hq)
  | case5 next rest hnext =>
      cases h
      exact Taken.nil quote _
  | case6 c next rest hc hesc ih =>
      rcases map_cons_eq_some h with ⟨tail, htail, rfl⟩
      exact (ih htail).pair _ (v := [c, next]) (by simp) (ne_x_of_special hq)
  | case7 c next rest hc hesc ih =>
      rcases map_cons_eq_some h with ⟨tail, htail, rfl⟩
      refine (ih htail).single c ?_
      simpa [special, opensEscape, hc] using hesc

/-- A string ends where its quote is not followed by another. -/
theorem stringContent_left (h : stringContent quote escapes s = some (content, left)) :
    left.head? ≠ some quote := by
  fun_induction stringContent quote escapes s generalizing content left with
  | case1 => simp at h
  | case2 =>
      cases h
      simp
  | case3 => simp at h
  | case4 rest ih =>
      rcases map_cons_eq_some h with ⟨tail, htail, _⟩
      exact ih htail
  | case5 next rest hnext =>
      cases h
      simpa using hnext
  | case6 c next rest hc hesc ih =>
      rcases map_cons_eq_some h with ⟨tail, htail, _⟩
      exact ih htail
  | case7 c next rest hc hesc ih =>
      rcases map_cons_eq_some h with ⟨tail, htail, _⟩
      exact ih htail

/-- A content without special characters is read back. -/
theorem stringContent_of_not_special (hs : ∀ c ∈ content, special quote escapes c = false)
    (ha : after.head? ≠ some quote) :
    stringContent quote escapes (content ++ quote :: after) = some (content, after) := by
  induction content with
  | nil =>
      cases after with
      | nil => simp [stringContent]
      | cons next rest =>
          have hnext : next ≠ quote := by simpa using ha
          simp [stringContent, hnext]
  | cons c content ih =>
      have hc := hs c (by simp)
      have hne : c ≠ quote := by
        rintro rfl
        simp [special] at hc
      have hesc : ¬ (decide (c = '\\') && escapes) = true := by
        simpa [special, opensEscape, hne] using hc
      -- The reader looks at the next character too, and there is one: the quote at the latest.
      have htail := ih (fun x hx => hs x (by simp [hx]))
      cases hrest : content ++ quote :: after with
      | nil => simp at hrest
      | cons next rest =>
          rw [List.cons_append, hrest, stringContent, if_neg hne, if_neg hesc, ← hrest, htail]
          rfl

/-- The only contents that are read back are those without special characters. -/
theorem not_special_of_stringContent (hq : quote ≠ 'x')
    (h : stringContent quote escapes (content ++ quote :: after) = some (content, after)) :
    ∀ c ∈ content, special quote escapes c = false := by
  exact (stringContent_taken hq h).not_special_of_quote hq

end

/-- A delimited name is read like a string whose only escape is the doubled quote. -/
theorem delimited_eq_stringContent (closing : Char) (s : List Char) :
    delimited closing s = stringContent closing false s := by
  fun_induction delimited closing s with
  | case1 => rfl
  | case2 rest ih => simp [stringContent, ih]
  | case3 next rest h => simp [stringContent, h]
  | case4 => simp [stringContent]
  | case5 c rest h ih =>
      cases rest with
      | nil => simp [stringContent, delimited, h]
      | cons next rest => simp [stringContent, h, ih]

/-! ## Strings with code point escapes -/

section

variable {content left after s : List Char}

/-- A run of digits is taken from the front of a text, and is as long as it says. -/
theorem digitRun_taken {digit? : Char → Option Nat} {base limit n count : Nat}
    (h : digitRun digit? base limit s = (n, count, left)) :
    ∃ u, s = u ++ left ∧ u.length = count := by
  fun_induction digitRun digit? base limit s generalizing n count left with
  | case1 =>
      cases h
      exact ⟨[], rfl, rfl⟩
  | case2 limit c rest v hv n count left hrun ih =>
      cases h
      rcases ih hrun with ⟨u, rfl, hu⟩
      exact ⟨c :: u, rfl, by simp [hu]⟩
  | case3 =>
      cases h
      exact ⟨[], rfl, rfl⟩

/-- The digits of an escape are taken from the front of a text. -/
theorem fixedEscape_taken {count : Nat} {c : Char} (h : fixedEscape count s = some (c, left)) :
    ∃ u, s = u ++ left := by
  unfold fixedEscape at h
  split at h
  · simp at h
  · rcases hv : (hexValue? (s.take count)).bind charOf? with _ | v
    · simp [hv] at h
    · simp only [hv, Option.pure_def, Option.bind_eq_bind, Option.bind_some] at h
      cases h
      exact ⟨s.take count, (List.take_append_drop count s).symm⟩

theorem taken_after (first : Char) (h : ∃ u, s = u ++ left) :
    ∃ u, first :: s = u ++ left ∧ 1 ≤ u.length := by
  rcases h with ⟨u, rfl⟩
  exact ⟨first :: u, rfl, by simp⟩

theorem taken_first {first x c : Char} (h : some (x, s) = some (c, left)) :
    ∃ u, first :: s = u ++ left ∧ 1 ≤ u.length := by
  cases h
  exact taken_after first ⟨[], rfl⟩

/-- A run that starts with a digit is not empty. -/
theorem digitRun_taken_digit {digit? : Char → Option Nat} {base limit n count v : Nat}
    {first : Char} (hv : digit? first = some v)
    (h : digitRun digit? base (limit + 1) (first :: s) = (n, count, left)) :
    ∃ u, first :: s = u ++ left ∧ 1 ≤ u.length := by
  rcases digitRun_taken h with ⟨u, hu, hlen⟩
  refine ⟨u, hu, ?_⟩
  simp only [digitRun, hv] at h
  cases h
  omega

/-- What stands for a character after a backslash is not empty. -/
theorem escapeSequence_taken {c : Char} (h : escapeSequence s = some (c, left)) :
    ∃ u, s = u ++ left ∧ 1 ≤ u.length := by
  -- Digits are counted in two of the ways to write a character; the others are of fixed length.
  unfold escapeSequence at h
  split at h
  case h_1 => simp at h
  case h_7 => exact taken_after _ (fixedEscape_taken h)
  case h_8 => exact taken_after _ (fixedEscape_taken h)
  case h_9 rest =>
    split at h
    · next hrun =>
        cases h
        rcases digitRun_taken hrun with ⟨u, rfl, _⟩
        exact taken_after 'x' ⟨u, rfl⟩
    · next hrun =>
        rcases Option.map_eq_some_iff.1 h with ⟨e, _, heq⟩
        cases heq
        rcases digitRun_taken hrun with ⟨u, rfl, _⟩
        exact taken_after 'x' ⟨u, rfl⟩
  case h_10 first rest _ _ _ _ _ _ _ _ =>
    split at h
    · exact taken_first h
    · next v hv =>
        rcases hrun : digitRun octalDigit? 8 3 (first :: rest) with ⟨n, count, left'⟩
        simp only [hrun] at h
        rcases Option.map_eq_some_iff.1 h with ⟨e, _, heq⟩
        cases heq
        exact digitRun_taken_digit hv hrun
  all_goals exact taken_first h

/-- The digits of a code point are taken from the front of a text, as many as there are to be. -/
theorem codePoint_taken {count n : Nat} {c : Char} (h : codePoint count n s = .ok (c, left)) :
    ∃ u, s = u ++ left ∧ u.length = count := by
  fun_induction codePoint count n s with
  | case1 n s c' hc =>
      cases h
      exact ⟨[], rfl, rfl⟩
  | case2 => simp at h
  | case3 => simp at h
  | case4 n count c' rest v hv ih =>
      rcases ih h with ⟨u, rfl, hu⟩
      exact ⟨c' :: u, rfl, by simp [hu]⟩
  | case5 => simp at h

/-- A character that is put in front of a content is the first one of it, where the content is
read. -/
theorem map_cons_eq_ok {x : Char} {o : Except Fault (List Char × List Char)}
    (h : (o.map fun (s, left) => (x :: s, left)) = .ok (content, left)) :
    ∃ tail, o = .ok (tail, left) ∧ content = x :: tail := by
  rcases map_eq_ok.1 h with ⟨⟨tail, left'⟩, ho, heq⟩
  cases heq
  exact ⟨tail, ho, rfl⟩

/-- The content of a string with escapes is taken from the text up to its quote. -/
theorem escapedContent_taken {fuel : Nat} (h : escapedContent fuel s = some (content, left)) :
    Taken (special '\x27' true) 1 s content left := by
  fun_induction escapedContent fuel s generalizing content left with
  | case1 => simp at h
  | case2 => simp at h
  | case3 fuel after ih =>
      rcases map_cons_eq_some h with ⟨tail, htail, rfl⟩
      exact (ih htail).pair _ (v := ['\x27', '\x27']) (by simp) (ne_x_of_special (by decide))
  | case4 fuel rest hrest =>
      cases h
      exact Taken.nil '\x27' _
  | case5 => simp at h
  | case6 => simp at h
  | case7 fuel rest e after hseq he _ ih =>
      rcases map_cons_eq_some h with ⟨tail, htail, rfl⟩
      rcases escapeSequence_taken hseq with ⟨u, rfl, hu⟩
      exact (ih htail).pair e (v := '\\' :: u) (by simpa using hu) (ne_x_of_special (by decide))
  | case8 fuel c rest hc hesc ih =>
      rcases map_cons_eq_some h with ⟨tail, htail, rfl⟩
      exact (ih htail).single c (by simp [special, opensEscape, hc, hesc])

/-- A string with escapes does not end in front of another quote. -/
theorem escapedContent_left {fuel : Nat} (h : escapedContent fuel s = some (content, left)) :
    left.head? ≠ some '\x27' := by
  fun_induction escapedContent fuel s generalizing content left with
  | case4 fuel rest hrest =>
      cases h
      intro hhead
      rcases List.head?_eq_some_iff.1 hhead with ⟨after, rfl⟩
      exact hrest after rfl
  | case3 fuel after ih =>
      rcases map_cons_eq_some h with ⟨tail, htail, _⟩
      exact ih htail
  | case7 fuel rest e after hseq he _ ih =>
      rcases map_cons_eq_some h with ⟨tail, htail, _⟩
      exact ih htail
  | case8 fuel c rest hc hesc ih =>
      rcases map_cons_eq_some h with ⟨tail, htail, _⟩
      exact ih htail
  | _ => simp at h

/-- A content without anything to escape is read as it is written. -/
theorem escapedContent_of_not_special {fuel : Nat} (hf : content.length < fuel)
    (hs : ∀ c ∈ content, special '\x27' true c = false) (ha : after.head? ≠ some '\x27') :
    escapedContent fuel (content ++ '\x27' :: after) = some (content, after) := by
  induction content generalizing fuel with
  | nil =>
      cases fuel with
      | zero => simp at hf
      | succ fuel =>
          rw [List.nil_append, escapedContent.eq_def]
          simp only [if_pos]
          split
          · next rest => simp at ha
          · rfl
  | cons c content ih =>
      cases fuel with
      | zero => simp at hf
      | succ fuel =>
          have hc : c ≠ '\x27' ∧ c ≠ '\\' := by simpa [special, opensEscape] using hs c (by simp)
          have htail := @ih fuel (by simpa using hf) (fun x hx => hs x (by simp [hx]))
          rw [List.cons_append, escapedContent.eq_def]
          simp only [if_neg hc.1, if_neg hc.2, htail]
          rfl

/-- The content of a string with code points is taken from the text up to its quote. -/
theorem unicodeContent_taken {fuel : Nat} (h : unicodeContent fuel s = .ok (content, left)) :
    Taken (special '\x27' true) 1 s content left := by
  fun_induction unicodeContent fuel s generalizing content left with
  | case1 => simp at h
  | case2 => simp at h
  | case3 fuel cons after =>
      rename_i ih
      rcases map_cons_eq_ok h with ⟨tail, htail, rfl⟩
      exact (ih _ htail).pair _ (v := ['\x27', '\x27']) (by simp) (ne_x_of_special (by decide))
  | case4 fuel rest hrest _ =>
      cases h
      exact Taken.nil '\x27' _
  | case5 fuel cons after _ =>
      rename_i ih
      rcases map_cons_eq_ok h with ⟨tail, htail, rfl⟩
      exact (ih _ htail).pair _ (v := ['\\', '\\']) (by simp) (ne_x_of_special (by decide))
  | case6 fuel cons after _ =>
      rename_i ih
      rcases bind_eq_ok.1 h with ⟨⟨c, rest⟩, hcode, hcons⟩
      rcases codePoint_taken hcode with ⟨u, rfl, hu⟩
      rcases map_cons_eq_ok hcons with ⟨tail, htail, rfl⟩
      exact (ih _ htail).pair c (v := '\\' :: '+' :: u) (by simp) (ne_x_of_special (by decide))
  | case7 fuel cons rest _ _ _ =>
      rename_i ih
      rcases bind_eq_ok.1 h with ⟨⟨c, rest⟩, hcode, hcons⟩
      rcases codePoint_taken hcode with ⟨u, rfl, hu⟩
      rcases map_cons_eq_ok hcons with ⟨tail, htail, rfl⟩
      exact (ih _ htail).pair c (v := '\\' :: u) (by simp [hu]) (ne_x_of_special (by decide))
  | case8 fuel c rest cons hc hesc =>
      rename_i ih
      rcases map_cons_eq_ok h with ⟨tail, htail, rfl⟩
      exact (ih _ htail).single c (by simp [special, opensEscape, hc, hesc])

/-- A string with code points does not end in front of another quote. -/
theorem unicodeContent_left {fuel : Nat} (h : unicodeContent fuel s = .ok (content, left)) :
    left.head? ≠ some '\x27' := by
  fun_induction unicodeContent fuel s generalizing content left with
  | case1 => simp at h
  | case2 => simp at h
  | case3 fuel cons after =>
      rename_i ih
      rcases map_cons_eq_ok h with ⟨tail, htail, _⟩
      exact ih _ htail
  | case4 fuel rest hrest _ =>
      cases h
      intro hhead
      rcases List.head?_eq_some_iff.1 hhead with ⟨after, rfl⟩
      exact hrest after rfl
  | case5 fuel cons after _ =>
      rename_i ih
      rcases map_cons_eq_ok h with ⟨tail, htail, _⟩
      exact ih _ htail
  | case6 fuel cons after _ =>
      rename_i ih
      rcases bind_eq_ok.1 h with ⟨⟨c, rest⟩, _, hcons⟩
      rcases map_cons_eq_ok hcons with ⟨tail, htail, _⟩
      exact ih _ htail
  | case7 fuel cons rest _ _ _ =>
      rename_i ih
      rcases bind_eq_ok.1 h with ⟨⟨c, rest⟩, _, hcons⟩
      rcases map_cons_eq_ok hcons with ⟨tail, htail, _⟩
      exact ih _ htail
  | case8 fuel c rest cons hc hesc =>
      rename_i ih
      rcases map_cons_eq_ok h with ⟨tail, htail, _⟩
      exact ih _ htail

/-- A content without code points is read as it is written. -/
theorem unicodeContent_of_not_special {fuel : Nat} (hf : content.length < fuel)
    (hs : ∀ c ∈ content, special '\x27' true c = false) (ha : after.head? ≠ some '\x27') :
    unicodeContent fuel (content ++ '\x27' :: after) = .ok (content, after) := by
  induction content generalizing fuel with
  | nil =>
      cases fuel with
      | zero => simp at hf
      | succ fuel =>
          simp only [List.nil_append, unicodeContent, if_pos]
          split
          · next rest => simp at ha
          · rfl
  | cons c content ih =>
      cases fuel with
      | zero => simp at hf
      | succ fuel =>
          have hc : c ≠ '\x27' ∧ c ≠ '\\' := by simpa [special, opensEscape] using hs c (by simp)
          have htail := @ih fuel (by simpa using hf) (fun x hx => hs x (by simp [hx]))
          simp only [List.cons_append, unicodeContent, if_neg hc.1, if_neg hc.2, htail]
          rfl

end

/-! ## Strings between tripled quotes -/

/-- The first place where a text occurs in another: before it the text does not begin. -/
theorem exists_first_infix {p l : List Char} (hp : p ≠ []) (h : p <:+: l) :
    ∃ a b, l = a ++ (p ++ b) ∧ ¬ p <:+: a ++ p.dropLast := by
  induction l with
  | nil => exact absurd (List.infix_nil.1 h) hp
  | cons x l ih =>
      by_cases hpre : p <+: x :: l
      · rcases hpre with ⟨b, hb⟩
        refine ⟨[], b, by simp [hb], ?_⟩
        intro hin
        have hlen := hin.length_le
        have hpos := List.length_pos_iff.2 hp
        simp at hlen
        omega
      · rcases List.infix_cons_iff.1 h with hfront | hin
        · exact absurd hfront hpre
        · rcases ih hin with ⟨a, b, rfl, hfirst⟩
          refine ⟨x :: a, b, rfl, ?_⟩
          intro hagain
          rcases List.infix_cons_iff.1 hagain with hfront | hlater
          · -- It would begin here, but then within the whole text as well.
            refine hpre (hfront.trans ?_)
            have hp' : p.dropLast <+: p ++ b :=
              (List.dropLast_prefix p).trans (List.prefix_append p b)
            simpa using (List.prefix_append_right_inj a).2 hp'
          · exact hfirst hlater

/-- A character with its escape is written in at most two places. -/
theorem charWeight_add_opensEscape_le (escapes : Bool) (c : Char) :
    charWeight c + (if opensEscape escapes c = true then 1 else 0) ≤ 2 := by
  by_cases hc : c = '\\'
  · subst hc
    cases escapes <;> decide
  · simpa [opensEscape, hc] using charWeight_le_two c

section

variable {quote : Char} {escapes : Bool} {run : Nat} {s gathered content left after : List Char}

/-- A third quote in a row closes the string, and another one is counted. -/
theorem tripleContent_quote :
    tripleContent quote escapes run gathered (quote :: s) =
      if run = 2 then some ((gathered.drop 2).reverse, s)
      else tripleContent quote escapes (run + 1) (quote :: gathered) s := by
  rw [tripleContent.eq_def]
  simp

/-- What has been gathered starts with the quotes just read. -/
theorem tripleContent_taken_from (hb : quote ≠ '\\') (hrun : run ≤ 2)
    (hg : List.replicate run quote <+: gathered)
    (h : tripleContent quote escapes run gathered s = some (content, left)) :
    ∃ u, s = u ++ left ∧ weight content + content.countP (opensEscape escapes) + 3 ≤
      weight gathered + gathered.countP (opensEscape escapes) + weight u := by
  -- The room of what has been gathered and of what is still to be taken is kept by every step; the
  -- last two quotes are gathered first and given up at the end.
  fun_induction tripleContent quote escapes run gathered s with
  | case1 => simp at h
  | case2 gathered rest =>
      cases h
      rcases hg with ⟨g, rfl⟩
      have hq := one_le_charWeight quote
      have hdrop : (List.replicate 2 quote ++ g).drop 2 = g := rfl
      refine ⟨[quote], rfl, ?_⟩
      simp only [hdrop, weight, List.map_reverse, List.sum_reverse, List.countP_reverse]
      simp [List.replicate, opensEscape, hb]
      omega
  | case3 run gathered rest hrun' ih =>
      have hg' : List.replicate (run + 1) quote <+: quote :: gathered := by
        simpa [List.replicate_succ] using hg
      rcases ih (by omega) hg' h with ⟨u, rfl, hu⟩
      refine ⟨quote :: u, rfl, ?_⟩
      simp only [weight_cons, List.countP_cons, opensEscape] at hu ⊢
      simp [hb] at hu ⊢
      omega
  | case4 => simp at h
  | case5 run gathered c hc hesc next rest ih =>
      rcases ih (by omega) (by simp) h with ⟨u, rfl, hu⟩
      refine ⟨c :: next :: u, rfl, ?_⟩
      have hroom := charWeight_add_opensEscape_le escapes (escapedChar next)
      have h1 := one_le_charWeight c
      have h2 := one_le_charWeight next
      simp only [weight_cons, List.countP_cons] at hu ⊢
      omega
  | case6 run gathered c rest hc hesc ih =>
      rcases ih (by omega) (by simp) h with ⟨u, rfl, hu⟩
      refine ⟨c :: u, rfl, ?_⟩
      have hplain : opensEscape escapes c = false := by simpa [opensEscape] using hesc
      simp only [weight_cons, List.countP_cons, hplain] at hu ⊢
      simp at hu ⊢
      omega

/-- The content between tripled quotes is taken from the text up to the three that close it. -/
theorem tripleContent_taken (hb : quote ≠ '\\')
    (h : tripleContent quote escapes 0 [] s = some (content, left)) :
    Taken (opensEscape escapes) 3 s content left := by
  simpa [Taken] using tripleContent_taken_from hb (Nat.zero_le 2) (List.nil_prefix) h

/-- A content without three quotes in a row is read as it is written, by induction on the content,
where the quotes at its front were counted before. -/
theorem tripleContent_of_not_infix_from (hrun : run ≤ 2)
    (hesc : ∀ c ∈ content, opensEscape escapes c = false)
    (hin : ¬ [quote, quote, quote] <:+: List.replicate run quote ++ (content ++ [quote, quote])) :
    tripleContent quote escapes run gathered (content ++ quote :: quote :: quote :: after) =
      some (gathered.reverse ++ content, after) := by
  induction content generalizing run gathered with
  | nil =>
      -- With quotes just before, the closing ones would have come to an end earlier.
      have hzero : run = 0 := by
        rcases run with _ | _ | _ | run
        · rfl
        · exact absurd (List.infix_refl _) hin
        · exact absurd ⟨[], [quote], rfl⟩ hin
        · omega
      subst hzero
      simp [tripleContent_quote]
  | cons c content ih =>
      have htail : ∀ x ∈ content, opensEscape escapes x = false :=
        fun x hx => hesc x (by simp [hx])
      by_cases hc : c = quote
      · -- A quote makes the run longer, which is not the third one yet.
        subst hc
        have hlt : run ≠ 2 := by
          rintro rfl
          exact hin ⟨[], content ++ [c, c], rfl⟩
        have hin' : ¬ [c, c, c] <:+: List.replicate (run + 1) c ++ (content ++ [c, c]) := by
          simpa [List.replicate_succ'] using hin
        have hrec := @ih (run + 1) (c :: gathered) (by omega) htail hin'
        rw [List.cons_append, tripleContent_quote, if_neg hlt, hrec]
        simp
      · -- Any other character ends the run.
        have hplain : ¬ (decide (c = '\\') && escapes) = true := by
          simpa [opensEscape] using hesc c (by simp)
        have hin' : ¬ [quote, quote, quote] <:+: List.replicate 0 quote ++
            (content ++ [quote, quote]) := by
          intro hlater
          refine hin (hlater.trans (List.IsSuffix.isInfix ?_))
          exact ⟨List.replicate run quote ++ [c], by simp⟩
        have hrec := @ih 0 (c :: gathered) (Nat.zero_le 2) htail hin'
        rw [List.cons_append, tripleContent.eq_def]
        simp only [if_neg hc, if_neg hplain, hrec]
        simp

/-- A content without three quotes in a row is read as it is written. -/
theorem tripleContent_of_not_infix (hesc : ∀ c ∈ content, opensEscape escapes c = false)
    (hin : ¬ [quote, quote, quote] <:+: content ++ [quote, quote]) :
    tripleContent quote escapes 0 [] (content ++ quote :: quote :: quote :: after) =
      some (content, after) := by
  have hin' : ¬ [quote, quote, quote] <:+:
      List.replicate 0 quote ++ (content ++ [quote, quote]) := by
    simpa using hin
  exact tripleContent_of_not_infix_from (Nat.zero_le 2) hesc hin'

/-- A content that is read as it is written opens no escape. -/
theorem not_opensEscape_of_tripleContent (hb : quote ≠ '\\') (hx : quote ≠ 'x')
    (h : tripleContent quote escapes 0 [] (content ++ quote :: quote :: quote :: after) =
      some (content, after)) :
    ∀ c ∈ content, opensEscape escapes c = false := by
  have hw : weight [quote, quote, quote] = [quote, quote, quote].length := by
    simp [charWeight, hx]
  exact (tripleContent_taken hb h).not_special [quote, quote, quote] (Nat.le_refl 3) hw

/-- A content that holds the closing quotes would end there. -/
theorem not_infix_of_tripleContent (hb : quote ≠ '\\') (hx : quote ≠ 'x')
    (h : tripleContent quote escapes 0 [] (content ++ quote :: quote :: quote :: after) =
      some (content, after)) :
    ¬ [quote, quote, quote] <:+: content ++ [quote, quote] := by
  intro hin
  -- Up to its first closing quotes the content is read back, and that is less than all of it.
  rcases exists_first_infix (by simp) hin with ⟨a, b, hab, hfirst⟩
  have hlen : a.length < content.length := by
    have := congrArg List.length hab
    simp at this
    omega
  have hpre : a <+: content := by
    have hfull : a <+: content ++ [quote, quote] := ⟨_, hab.symm⟩
    exact List.prefix_of_prefix_length_le hfull (List.prefix_append _ _) (Nat.le_of_lt hlen)
  have hesc : ∀ c ∈ a, opensEscape escapes c = false := fun c hc =>
    not_opensEscape_of_tripleContent hb hx h c (hpre.subset hc)
  have hshort : tripleContent quote escapes 0 []
      (a ++ quote :: quote :: quote :: (b ++ quote :: after)) = some (a, b ++ quote :: after) :=
    tripleContent_of_not_infix hesc hfirst
  have hsame : content ++ quote :: quote :: quote :: after =
      a ++ quote :: quote :: quote :: (b ++ quote :: after) := by
    have hleft : content ++ quote :: quote :: quote :: after =
        (content ++ [quote, quote]) ++ quote :: after := by simp
    rw [hleft, hab]
    simp
  rw [hsame, hshort] at h
  simp only [Option.some.injEq, Prod.mk.injEq] at h
  rw [h.1] at hlen
  omega

end

end TypedSql.Lexer
