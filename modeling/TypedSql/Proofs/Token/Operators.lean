import TypedSql.Proofs.Token.Verbatim

namespace TypedSql.Lexer

open Text

/-! # Operators that are written out again

An operator is the longest one that starts a text, so it is read back in front of a text that does
not make it longer. One operator has two spellings, and only one of them is written.
-/

section

variable {d : Dialect} {c : Char} {s s' : Symbol} {rest left : List Char} {t : Token}

/-! ## The longest operator -/

/-- One more character makes a longer operator. -/
def goesOn (d : Dialect) (s : Symbol) (c : Char) : Bool := (operatorWith? d s c).isSome

/-- An operator of one character is written with it. -/
theorem operatorOf?_text (h : operatorOf? c = some s) : s.text.toList = [c] := by
  unfold operatorOf? at h
  split at h <;> cases h <;> rfl

/-- What some characters make of an operator. It is written with the character, but for the second
spelling of `<>`. -/
theorem operatorWith?_some (h : operatorWith? d s c = some s') :
    c ∈ ['>', '/', '|', '=', '!', '~', '*', '<', '@', '&', '-', '?', ':'] ∧ s' ≠ .bang ∧
      (s'.text.toList = s.text.toList ++ [c] ∨ s = .bang ∧ c = '=' ∧ s' = .notEqual) := by
  unfold operatorWith? at h
  split at h
  case h_3 =>
    split at h
    · cases h
      exact ⟨by decide, nofun, .inl rfl⟩
    · simp at h
  case h_9 =>
    cases h
    exact ⟨by decide, nofun, .inr ⟨rfl, rfl, rfl⟩⟩
  all_goals
    cases h
    try exact ⟨by decide, nofun, .inl rfl⟩

theorem operatorWith?_notEqual : operatorWith? d .notEqual c = none := rfl

/-- An operator that nothing goes on with is the longest. -/
theorem longestOperator_of_outside (h : Outside (goesOn d s) rest) :
    longestOperator d s rest = (s, rest) := by
  cases rest with
  | nil => rfl
  | cons c rest =>
      have hnone : operatorWith? d s c = none := by simpa [goesOn] using h
      simp only [longestOperator, hnone]

/-- The longest operator takes the characters that it is written with, but for the second spelling
of `<>`, and is read again in front of every text that does not make it longer. -/
theorem longestOperator_local (h : longestOperator d s rest = (s', left)) :
    ∃ u, (s'.text.toList = s.text.toList ++ u ∨ s = .bang ∧ u = ['='] ∧ s' = .notEqual) ∧
      rest = u ++ left ∧ Outside (goesOn d s') left ∧
      ∀ after, Outside (goesOn d s') after → longestOperator d s (u ++ after) = (s', after) := by
  induction rest generalizing s with
  | nil =>
      cases h
      exact ⟨[], .inl (by simp), rfl, outside_nil _, fun after => longestOperator_of_outside⟩
  | cons c rest ih =>
      cases hlonger : operatorWith? d s c with
      | none =>
          simp only [longestOperator, hlonger] at h
          have hout : Outside (goesOn d s) (c :: rest) := by simp [goesOn, hlonger]
          cases h
          exact ⟨[], .inl (by simp), rfl, hout, fun after => longestOperator_of_outside⟩
      | some longer =>
          simp only [longestOperator, hlonger] at h
          rcases ih h with ⟨u, htext, hrest, hout, hread⟩
          have hreads : ∀ after, Outside (goesOn d s') after →
              longestOperator d s (c :: u ++ after) = (s', after) := by
            intro after hafter
            simp only [List.cons_append, longestOperator, hlonger, hread after hafter]
          refine ⟨c :: u, ?_, by simp [hrest], hout, hreads⟩
          obtain ⟨-, hbang, hstep | ⟨rfl, rfl, rfl⟩⟩ := operatorWith?_some hlonger
          · rcases htext with htext | ⟨rfl, -, -⟩
            · exact .inl (by rw [htext, hstep, List.append_assoc, List.singleton_append])
            · exact absurd rfl hbang
          · -- Nothing makes the second spelling longer.
            rw [longestOperator_of_outside (by simp [Outside, goesOn, operatorWith?_notEqual])] at h
            cases h
            have hnil : u = [] := by simpa using hrest
            exact .inr ⟨rfl, by rw [hnil], rfl⟩

/-- Operators go on with few characters only. -/
theorem operatorWith?_mem (h : operatorWith? d s c = some s') :
    c ∈ ['>', '/', '|', '=', '!', '~', '*', '<', '@', '&', '-', '?', ':'] :=
  (operatorWith?_some h).1

/-- Only a less-than sign is made longer by a character that another spelling starts with. -/
theorem goesOn_outside {after : List Char} (hr : Agree left after)
    (hl : Outside (goesOn d s) left) (hless : s = .less → after.head? ≠ some '<') :
    Outside (goesOn d s) after := by
  have hnew : ∀ c ∈ newHeads, c ≠ '<' →
      c ∉ ['>', '/', '|', '=', '!', '~', '*', '<', '@', '&', '-', '?', ':'] :=
    List.all_iff_forall_prop.1 (by decide)
  have hkept : Outside (fun c => goesOn d s c && c != '<') after := by
    refine hr.outside (alike_of_not_mem fun c hc => ?_) fun c hc => by simp [hl c hc]
    by_cases hsharp : c = '<'
    · simp [hsharp]
    · cases hlonger : operatorWith? d s c with
      | none => simp [goesOn, hlonger]
      | some longer => exact absurd (operatorWith?_mem hlonger) (hnew c hc hsharp)
  intro c hc
  by_cases hsharp : c = '<'
  · subst hsharp
    cases s <;> first | rfl | exact absurd hc (hless rfl)
  · simpa [hsharp] using hkept c hc

/-! ## Operators that may go on -/

/-- An operator that no part of one goes on with stays what it is. -/
theorem extensible_eq_symbol (h : Outside d.isOperatorPart rest) :
    extensible d s rest = (.symbol s, rest) := by
  have htake : rest.takeWhile d.isOperatorPart = [] := by
    cases rest with
    | nil => rfl
    | cons c rest => simp [outside_cons.1 h]
  simp [extensible, htake]

/-- An operator that parts of one go on with is one with all of these parts. -/
theorem extensible_eq_operator (h : ¬ Outside d.isOperatorPart rest) :
    extensible d s rest =
      (.operator (s.text ++ String.ofList (rest.takeWhile d.isOperatorPart)),
        rest.dropWhile d.isOperatorPart) := by
  cases rest with
  | nil => exact absurd (outside_nil _) h
  | cons c rest =>
      have hc : d.isOperatorPart c = true := by simpa using h
      simp [extensible, hc]

/-- A longer operator is read again: it takes some character, and then all that may go on. -/
theorem extensible_operator_local (hc : ¬ Outside d.isOperatorPart rest)
    (h : extensible d s rest = (t, left)) :
    ∃ x more, t = .operator (s.text ++ String.ofList (x :: more)) ∧ rest = x :: more ++ left ∧
      ∀ after, Agree left after → extensible d s (x :: more ++ after) = (t, after) := by
  rw [extensible_eq_operator hc] at h
  cases h
  cases rest with
  | nil => exact absurd (outside_nil _) hc
  | cons x rest =>
      have hx : d.isOperatorPart x = true := by simpa using hc
      have hmore : ∀ c ∈ x :: rest.takeWhile d.isOperatorPart, d.isOperatorPart c = true := by
        intro c hc
        rcases List.mem_cons.1 hc with rfl | hc
        · exact hx
        · exact mem_takeWhile hc
      refine ⟨x, rest.takeWhile d.isOperatorPart, by simp [hx], by simp [hx], ?_⟩
      intro after hr
      have hafter := hr.outside (alike_isOperatorPart d) (outside_dropWhile _ _)
      have hgo : ¬ Outside d.isOperatorPart (x :: rest.takeWhile d.isOperatorPart ++ after) := by
        simp [hx]
      rw [extensible_eq_operator hgo]
      rw [takeWhile_append_of_outside hmore hafter, dropWhile_append_of_outside hmore hafter]
      simp [hx]

/-! ## Operators and the texts before which they are read -/

/-- The operator that a character starts, without regard to the names that signs open. -/
def plainOperator (d : Dialect) (c : Char) (s : Symbol) (rest : List Char) : Token × List Char :=
  let (s, left) := longestOperator d s rest
  if opensExtensible c then extensible d s left else (.symbol s, left)

/-- A sign opens a name or is an operator. -/
theorem operator_eq (d : Dialect) (c : Char) (rest : List Char) :
    operator d c rest =
      match signedWord d c rest with
      | some word => some word
      | none => (operatorOf? c).map fun s => plainOperator d c s rest := rfl

/-- An operator stands apart from what follows it where it was read. -/
theorem apart_symbol {u : List Char} (hc : operatorOf? c = some s)
    (htext : s'.text.toList = c :: u) (hlong : Outside (goesOn d s') left)
    (hgo : opensExtensible c = true → Outside d.isOperatorPart left) :
    (Token.symbol s').Apart d left := by
  cases s' with
  | notEqual =>
      have hsharp : '<' = c := (List.cons.inj htext).1
      subst hsharp
      exact hgo rfl
  | less =>
      intro hhead
      have hgoes : goesOn d .less '<' = true := rfl
      rw [hlong '<' hhead] at hgoes
      cases hgoes
  | question =>
      have hmark : '?' = c := (List.cons.inj htext).1
      subst hmark
      have hnone : operatorOf? '?' = none := rfl
      rw [hnone] at hc
      cases hc
  | _ => trivial

/-- The second spelling of `<>` is the operator where it is taken. -/
theorem plainOperator_bang (hc : operatorOf? c = some .bang)
    (hlong : longestOperator d .bang rest = (.notEqual, left)) :
    c = '!' ∧ plainOperator d c .bang rest = (.symbol .notEqual, left) := by
  have hbang : c = '!' := by
    have htext := operatorOf?_text hc
    cases htext
    rfl
  subst hbang
  have hplain : opensExtensible '!' = false := rfl
  simp only [plainOperator, hlong, hplain, Bool.false_eq_true, if_false, and_self]

/-- An operator that does not go on is read again as it is, in front of a text that it stands apart
from. -/
theorem plainOperator_symbol_local {u : List Char} (hc : operatorOf? c = some s)
    (htext : s'.text.toList = c :: u) (hout : Outside (goesOn d s') left)
    (hgo : opensExtensible c = true → Outside d.isOperatorPart left)
    (hread : ∀ after, Outside (goesOn d s') after →
      longestOperator d s (u ++ after) = (s', after)) :
    (Token.symbol s').Apart d left ∧ ∀ after, Agree left after → (Token.symbol s').Apart d after →
      plainOperator d c s (u ++ after) = (.symbol s', after) := by
  refine ⟨apart_symbol hc htext hout hgo, ?_⟩
  intro after hr hapart
  have hlong : longestOperator d s (u ++ after) = (s', after) := by
    refine hread after (goesOn_outside hr hout ?_)
    rintro rfl
    exact hapart
  by_cases hopen : opensExtensible c = true
  · simp only [plainOperator, hlong, if_pos hopen]
    exact extensible_eq_symbol (hr.outside (alike_isOperatorPart d) (hgo hopen))
  · simp only [plainOperator, hlong, if_neg hopen]

/-- An operator that goes on is read again with all that it goes on with. -/
theorem plainOperator_extensible_local {next u : List Char} (htext : s'.text.toList = c :: u)
    (hopen : opensExtensible c = true) (hout : Outside (goesOn d s') next)
    (hgo : ¬ Outside d.isOperatorPart next)
    (hread : ∀ after, Outside (goesOn d s') after →
      longestOperator d s (u ++ after) = (s', after))
    (h : extensible d s' next = (t, left)) :
    ∃ v, t.chars = c :: (u ++ v) ∧ next = v ++ left ∧ (∀ after, t.Apart d after) ∧
      ∀ after, Agree left after → plainOperator d c s (u ++ (v ++ after)) = (t, after) := by
  rcases extensible_operator_local hgo h with ⟨x, more, rfl, rfl, hmore⟩
  refine ⟨x :: more, by simp [htext], rfl, fun after => trivial, ?_⟩
  intro after hr
  -- The first character that it goes on with is there again, so the symbol is no longer one.
  have hlong : longestOperator d s (u ++ (x :: more ++ after)) = (s', x :: more ++ after) :=
    hread _ (outside_cons.2 (outside_cons.1 hout))
  simp only [plainOperator, hlong, if_pos hopen]
  exact hmore after hr

/-- What an operator is written as is read again, with the exception of the second spelling. -/
theorem plainOperator_local (hc : operatorOf? c = some s)
    (h : plainOperator d c s rest = (t, left)) :
    c = '!' ∧ rest = '=' :: left ∧ t = .symbol .notEqual ∨
      ∃ u, t.chars = c :: u ∧ rest = u ++ left ∧ t.Apart d left ∧
        ∀ after, Agree left after → t.Apart d after →
          plainOperator d c s (u ++ after) = (t, after) := by
  rcases hlong : longestOperator d s rest with ⟨s', next⟩
  rcases longestOperator_local hlong with ⟨u, htext | ⟨rfl, rfl, rfl⟩, rfl, hout, hread⟩
  · -- The operator is written as it was read, and goes on with other signs or ends there.
    right
    have hsymbol : s'.text.toList = c :: u := by
      rw [htext, operatorOf?_text hc, List.singleton_append]
    by_cases hgo : opensExtensible c = true ∧ ¬ Outside d.isOperatorPart next
    · simp only [plainOperator, hlong, if_pos hgo.1] at h
      rcases plainOperator_extensible_local hsymbol hgo.1 hout hgo.2 hread h with
        ⟨v, hchars, rfl, hapart, hagain⟩
      refine ⟨u ++ v, hchars, by simp, hapart left, ?_⟩
      intro after hr _
      rw [List.append_assoc]
      exact hagain after hr
    · have hgo' : opensExtensible c = true → Outside d.isOperatorPart next := by
        intro hopen
        exact Classical.byContradiction fun hout => hgo ⟨hopen, hout⟩
      have hsame : plainOperator d c s (u ++ next) = (.symbol s', next) := by
        by_cases hopen : opensExtensible c = true
        · simp only [plainOperator, hlong, if_pos hopen, extensible_eq_symbol (hgo' hopen)]
        · simp only [plainOperator, hlong, if_neg hopen]
      rw [hsame] at h
      cases h
      rcases plainOperator_symbol_local hc hsymbol hout hgo' hread with ⟨hapart, hagain⟩
      exact ⟨u, hsymbol, rfl, hapart, hagain⟩
  · left
    rcases plainOperator_bang hc hlong with ⟨rfl, hbang⟩
    rw [hbang] at h
    cases h
    exact ⟨rfl, rfl, rfl⟩

/-! ## Names that signs open -/

/-- A sign opens a name when these characters come next, before the parts of the name. -/
inductive Opens : Char → List Char → Prop
  | hash {first : Char} (h : first ∉ "-> ".toList) : Opens '#' [first]
  | single {first : Char} (h : first ∉ "@>? '\"`".toList) : Opens '@' [first]
  | double {first : Char} (h : first ≠ ' ') : Opens '@' ['@', first]

/-- A sign with the start of a name after it opens the name. -/
theorem Opens.signedWord_append {opening : List Char} (h : Opens c opening)
    (hstart : d.isNameStart c = true) (s : List Char) :
    signedWord d c (opening ++ s) = some (bareWord d (c :: opening) s) := by
  cases h with
  | hash h => simpa [signedWord, hstart] using h
  | @single first h =>
      have hfirst : first ≠ '@' := by
        rintro rfl
        exact h (by decide)
      simpa [signedWord, hstart, hfirst] using h
  | double h => simp [signedWord, hstart, h]

/-- The names that signs open, and no others. -/
theorem signedWord_eq_some :
    signedWord d c rest = some (t, left) ↔ d.isNameStart c = true ∧
      ∃ opening s, Opens c opening ∧ rest = opening ++ s ∧
        bareWord d (c :: opening) s = (t, left) := by
  constructor
  · intro h
    unfold signedWord at h
    split at h
    case isFalse => simp at h
    case isTrue hstart =>
      refine ⟨hstart, ?_⟩
      split at h
      · split at h
        · simp at h
        · next hfirst => exact ⟨_, _, .hash (by simpa using hfirst), rfl, Option.some.inj h⟩
      · simp at h
      · split at h
        · simp at h
        · next hfirst => exact ⟨_, _, .double hfirst, rfl, Option.some.inj h⟩
      · next first after hat hdouble =>
          split at h
          · simp at h
          · next hfirst =>
              have hne : first ≠ '@' := by
                rintro rfl
                cases after with
                | nil => exact hat rfl rfl
                | cons x after => exact hdouble _ _ rfl rfl
              exact ⟨_, _, .single (by simpa [hne] using hfirst), rfl, Option.some.inj h⟩
      · simp at h
  · rintro ⟨hstart, opening, s, hopens, rfl, hword⟩
    rw [hopens.signedWord_append hstart, hword]

/-- A name is read again after the sign and what comes with it. -/
theorem signedWord_readBack (h : signedWord d c rest = some (t, left)) :
    ReadBack (fun s t left => signedWord d c s = some (t, left)) [c] rest t left := by
  rcases signedWord_eq_some.1 h with ⟨hstart, opening, s, hopens, rfl, hword⟩
  rcases bareWord_readBack hword with ⟨u, hu, rfl, hread⟩
  refine ⟨opening ++ u, by simpa using hu, by simp, ?_⟩
  intro after hr
  show signedWord d c (opening ++ u ++ after) = some (t, after)
  rw [List.append_assoc, hopens.signedWord_append hstart]
  exact congrArg some (hread after hr)

/-- A steady character that may not come first does not come first in another spelling either. -/
theorem Agree.head_not_mem {s t barred : List Char} {first : Char} (hr : Agree s (first :: t))
    (hsteady : ∀ x ∈ barred, x ∈ steadyHeads) (hfirst : first ∉ barred) :
    ∃ x s', s = x :: s' ∧ x ∉ barred := by
  rcases hr.head with ⟨x, s, rfl, _⟩
  refine ⟨x, s, rfl, ?_⟩
  intro hx
  rcases hr.eq_cons_left (hsteady x hx) with ⟨t', ht⟩
  cases ht
  exact hfirst hx

/-- What opens a name in one spelling has its like in every other spelling. -/
theorem Opens.of_agree {opening s t : List Char} (h : Opens c opening)
    (hr : Agree s (opening ++ t)) : ∃ opening' s', Opens c opening' ∧ s = opening' ++ s' := by
  cases h with
  | hash h =>
      rcases hr.head_not_mem (List.all_iff_forall_prop.1 (by decide)) h with ⟨x, s, rfl, hx⟩
      exact ⟨[x], s, .hash hx, rfl⟩
  | single h =>
      rcases hr.head_not_mem (List.all_iff_forall_prop.1 (by decide)) h with ⟨x, s, rfl, hx⟩
      exact ⟨[x], s, .single hx, rfl⟩
  | @double first h =>
      rcases hr.eq_cons (by decide) with ⟨s, rfl, htail⟩
      have hfirst : first ∉ [' '] := by simpa using h
      rcases htail.head_not_mem (List.all_iff_forall_prop.1 (by decide)) hfirst with
        ⟨x, s, rfl, hx⟩
      exact ⟨['@', x], s, .double (by simpa using hx), rfl⟩

/-- Where the texts agree, a sign opens a name in both or in none. -/
theorem signedWord_none_of_agree {s t : List Char} (hr : Agree s t) (h : signedWord d c s = none) :
    signedWord d c t = none := by
  cases ht : signedWord d c t with
  | none => rfl
  | some result =>
      rcases signedWord_eq_some.1 ht with ⟨hstart, opening, after, hopens, rfl, -⟩
      rcases hopens.of_agree hr with ⟨opening', s, hopens', rfl⟩
      rw [hopens'.signedWord_append hstart] at h
      cases h

end

end TypedSql.Lexer
