import TypedSql.Proofs.Placeholder.Pieces

namespace TypedSql.Placeholder

open Text

/-! # Positions and the names bound to them

The ways to look at the parameters of a body agree: the names of its placeholders, the parameters
that it takes, and the names bound to positions in either style. What a driver binds to the markers
in the written SQL is another matter, since copied text may read as a marker too.
-/

/-! ## Parameters and positions -/

/-- The mark that ends a declared type is taken off together with the blanks before it. -/
theorem elementType?_iff {declared element : List Char} :
    elementType? declared = some element ↔
      ∃ s, declared = s ++ ['[', ']'] ∧ element = trimRight s := by
  unfold elementType?
  constructor
  · intro h
    split at h
    · next rest hrev =>
        refine ⟨rest.reverse, ?_, (Option.some.inj h).symm⟩
        simpa using congrArg List.reverse hrev
    · cases h
  · rintro ⟨s, rfl, rfl⟩
    simp

/-- An input with a declared type has the name of its parameter. -/
theorem name_declaredInput (name declared : String) (nullable : Bool) :
    (declaredInput name declared nullable).name = name := by
  unfold declaredInput
  simp only
  split <;> rfl

/-- An input has the name of its parameter. -/
theorem name_describe (metadata : Keyed String) (name : String) :
    (describe metadata name).name = name := by
  unfold describe
  split
  · exact name_declaredInput _ _ _
  · split
    · exact name_declaredInput _ _ _
    · rfl

section

variable (d : Dialect) (body : String)

/-- The inputs are the names that occur, each one once. -/
theorem names_inputs (metadata : Keyed String) :
    (inputs d body metadata).map InputParameter.name = distinct (occurrences d body) := by
  simp [inputs, Function.comp_def, name_describe]

/-- With numbers the names that occur are bound once each. -/
theorem parameters_withMarkers_numbered :
    (withMarkers d body .numbered).parameters = distinct (occurrences d body) := by
  rw [withMarkers_eq, parameters_rewriteFragments_numbered, ← occurrences_eq, distinct]

/-- With question marks every occurrence is bound. -/
theorem parameters_withMarkers_questionMark :
    (withMarkers d body .questionMark).parameters = occurrences d body := by
  rw [withMarkers_eq, parameters_rewriteFragments_questionMark, List.nil_append, occurrences_eq]

end

/-- The numbers of the placeholders `names` among the bound names: each is the place of its name,
and they are first used in the order in which they count. -/
structure Numbering (names parameters : List String) (numbers : List Nat) : Prop where
  length : numbers.length = names.length
  bound : ∀ k j : Nat, numbers[k]? = some j →
    1 ≤ j ∧ j ≤ parameters.length ∧ parameters[j - 1]? = names[k]?
  inOrder : numbers.eraseDups = List.range' 1 parameters.length

/-- The numbers of occurrences number their names. -/
theorem numbering_numbersFrom (names : List String) :
    Numbering names (distinct names) (numbersFrom [] names) where
  length := length_numbersFrom [] names
  bound := by
    intro k j h
    rcases getElem?_numbersFrom [] h with ⟨hj, name, hname, hbound⟩
    rcases List.getElem?_eq_some_iff.1 hbound with ⟨hlt, _⟩
    refine ⟨hj, ?_, hbound.trans hname.symm⟩
    rw [distinct]
    omega
  inOrder := by
    -- With no names bound before, every number is a new one.
    have hall : (numbersFrom [] names).filter (([] : List String).length < ·) =
        numbersFrom [] names := by
      refine List.filter_eq_self.2 fun j hj => ?_
      rcases List.mem_iff_getElem?.1 hj with ⟨k, hk⟩
      have hpos := (getElem?_numbersFrom [] hk).1
      simp
      omega
    have horder := eraseDups_numbersFrom [] names
    rwa [hall] at horder

/-- Adding a name repeats none. -/
theorem nodup_addName {bound : List String} (h : bound.Nodup) (name : String) :
    (addName bound name).Nodup := by
  by_cases hmem : name ∈ bound
  · rwa [addName_of_mem hmem]
  · rw [addName_of_not_mem hmem, List.nodup_append]
    refine ⟨h, by simp, ?_⟩
    intro a ha b hb
    rintro rfl
    exact hmem (List.mem_singleton.1 hb ▸ ha)

/-- Adding names repeats none. -/
theorem nodup_foldl_addName {bound : List String} (h : bound.Nodup) (names : List String) :
    (names.foldl addName bound).Nodup := by
  induction names generalizing bound with
  | nil => exact h
  | cons name names ih => exact ih (nodup_addName h name)

/-- The positions of a body are bound to the names of its placeholders: to every occurrence in one
style, in the other to every name once, which is what the parameters of the body are. There the
markers are numbers of names, counting on with every new name. -/
theorem positions_agree (d : Dialect) (body : String) (metadata : Keyed String) :
    (withMarkers d body .questionMark).parameters = occurrences d body ∧
      (withMarkers d body .numbered).parameters =
        (inputs d body metadata).map InputParameter.name ∧
      (withMarkers d body .numbered).parameters = (occurrences d body).eraseDups ∧
      (withMarkers d body .numbered).parameters.Nodup ∧
      (withMarkers d body .numbered).sql =
        String.join ((pieces d body .numbered).map Piece.text) ∧
      (pieces d body .numbered).filterMap Piece.name? = occurrences d body ∧
      ∃ numbers : List Nat,
        (pieces d body .numbered).filterMap Piece.marker? = numbers.map (fun j => s!"${j}") ∧
        Numbering (occurrences d body) (withMarkers d body .numbered).parameters numbers := by
  rw [parameters_withMarkers_numbered, names_inputs]
  refine ⟨parameters_withMarkers_questionMark d body, rfl, distinct_eq_eraseDups _,
    nodup_foldl_addName List.nodup_nil _, sql_withMarkers d body _, names_pieces d body _,
    numbersFrom [] (occurrences d body), ?_, numbering_numbersFrom _⟩
  rw [pieces, markers_piecesFrom_numbered, occurrences_eq]

/-! ## Markers that were in the body -/

/-- The position that a text reads as: a dollar sign and digits. -/
def position? (s : String) : Option Nat :=
  match s.toList with
  | '$' :: digits =>
      if digits ≠ [] ∧ digits.all Char.isDigit then some (Nat.ofDigitChars 10 digits 0) else none
  | _ => none

/-- Whether a text reads as a question mark that stands for a parameter, with a number or
without. -/
def isQuestionMark (s : String) : Bool :=
  match s.toList with
  | '?' :: numerals => numerals.all isNumeral
  | _ => false

/-- A text reads as a marker of the style. -/
def ReadsAsMarker : Style → String → Prop
  | .numbered, s => (position? s).isSome = true
  | .questionMark, s => isQuestionMark s = true

/-- Every piece that reads as a marker was written for a placeholder, and the position that it reads
as is bound to the name of the placeholder. -/
def BoundRightly : Style → List Piece → List String → Prop
  | .numbered, ps, parameters =>
      ∀ p ∈ ps, ∀ k, position? p.text = some k →
        1 ≤ k ∧ ∃ name, p.name? = some name ∧ parameters[k - 1]? = some name
  | .questionMark, ps, parameters =>
      (ps.filter fun p => isQuestionMark p.text).map Piece.name? = parameters.map some

/-- The marker of a position is read as this position. -/
theorem position?_marker (j : Nat) : position? s!"${j}" = some j := by
  have htext : (s!"${j}").toList = '$' :: Nat.toDigits 10 j := by
    rw [String.toList_append, Nat.toString_eq_repr, Nat.toList_repr]
    rfl
  have hdigits : (Nat.toDigits 10 j).all Char.isDigit = true := by
    simp only [List.all_eq_true]
    exact fun c hc => Nat.isDigit_of_mem_toDigits (by decide) (by decide) hc
  rw [position?, htext]
  simp [hdigits, Nat.ofDigitChars_ten_toDigits]

/-- A marker in the numbered style is the number of its name. -/
theorem marker_mem_piecesFrom_numbered {bound : List String} {fs : List Fragment}
    {s name : String} (h : Piece.marker s name ∈ piecesFrom .numbered bound fs) :
    ∃ j, s = s!"${j}" ∧ 1 ≤ j ∧
      ((fs.filterMap Fragment.name?).foldl addName bound)[j - 1]? = some name := by
  induction fs generalizing bound with
  | nil => simp [piecesFrom] at h
  | cons f fs ih =>
      cases f with
      | text s' =>
          refine ih ?_
          simpa [piecesFrom] using h
      | placeholder name' =>
          rcases List.mem_cons.1 h with h | h
          · cases h
            refine ⟨_, rfl, Nat.le_add_left 1 _, ?_⟩
            exact getElem?_idxOf_of_prefix (mem_addName bound name) (prefix_foldl_addName _ _)
          · exact ih h

/-- Every marker is a question mark, where they are not numbered. -/
theorem marker_mem_piecesFrom_questionMark {bound : List String} {fs : List Fragment}
    {s name : String} (h : Piece.marker s name ∈ piecesFrom .questionMark bound fs) : s = "?" := by
  induction fs generalizing bound with
  | nil => simp [piecesFrom] at h
  | cons f fs ih =>
      cases f with
      | text s' =>
          have h' : Piece.marker s name ∈ piecesFrom .questionMark bound fs := by
            simpa [piecesFrom] using h
          exact ih h'
      | placeholder name' =>
          rcases List.mem_cons.1 h with h | h
          · cases h
            rfl
          · exact ih h

theorem map_name?_filter {ps : List Piece}
    (h : ∀ p ∈ ps, isQuestionMark p.text = p.name?.isSome) :
    (ps.filter fun p => isQuestionMark p.text).map Piece.name? =
      (ps.filterMap Piece.name?).map some := by
  induction ps with
  | nil => rfl
  | cons p ps ih =>
      have hp := h p (by simp)
      have hps := ih fun q hq => h q (List.mem_cons_of_mem p hq)
      cases hname : p.name? with
      | none =>
          rw [hname] at hp
          rw [List.filter_cons_of_neg (by simp [hp]), List.filterMap_cons_none hname, hps]
      | some name =>
          rw [hname] at hp
          rw [List.filter_cons_of_pos (by simpa using hp), List.filterMap_cons_some hname,
            List.map_cons, List.map_cons, hname, hps]

/-- Numbers say which names are bound when no text of the body reads as a number. -/
theorem boundRightly_numbered_iff (fs : List Fragment) :
    BoundRightly .numbered (piecesFrom .numbered [] fs)
        ((fs.filterMap Fragment.name?).foldl addName []) ↔
      ∀ s, Fragment.text s ∈ fs → ¬ ReadsAsMarker .numbered s := by
  constructor
  · intro h s hs hmarker
    rcases Option.isSome_iff_exists.1 hmarker with ⟨k, hk⟩
    rcases h _ ((copied_mem_piecesFrom .numbered [] fs).2 hs) k hk with ⟨_, name, hname, _⟩
    simp [Piece.name?] at hname
  · intro h p hp k hk
    cases p with
    | copied s =>
        -- Copied text does not read as a position at all.
        refine absurd ?_ (h s ((copied_mem_piecesFrom .numbered [] fs).1 hp))
        exact Option.isSome_iff_exists.2 ⟨k, hk⟩
    | marker s name =>
        rcases marker_mem_piecesFrom_numbered hp with ⟨j, rfl, hj, hbound⟩
        rw [Piece.text, position?_marker] at hk
        cases hk
        exact ⟨hj, name, rfl, hbound⟩

/-- Question marks say which names are bound when no text of the body reads as one. -/
theorem boundRightly_questionMark_iff (fs : List Fragment) :
    BoundRightly .questionMark (piecesFrom .questionMark [] fs) (fs.filterMap Fragment.name?) ↔
      ∀ s, Fragment.text s ∈ fs → ¬ ReadsAsMarker .questionMark s := by
  constructor
  · intro h s hs hmarker
    -- A copied text among the question marks stands for no name, but all of them have one.
    have hmem : Piece.copied s ∈
        (piecesFrom .questionMark [] fs).filter (fun p => isQuestionMark p.text) :=
      List.mem_filter.2 ⟨(copied_mem_piecesFrom .questionMark [] fs).2 hs, hmarker⟩
    have hnone : none ∈ (fs.filterMap Fragment.name?).map some := by
      rw [← (h : _ = _)]
      exact List.mem_map.2 ⟨_, hmem, rfl⟩
    simp at hnone
  · intro h
    rw [← names_piecesFrom .questionMark []]
    refine map_name?_filter fun p hp => ?_
    cases p with
    | copied s =>
        have hnot := h s ((copied_mem_piecesFrom .questionMark [] fs).1 hp)
        simpa [ReadsAsMarker, Piece.name?, Piece.text] using hnot
    | marker s name =>
        rw [Piece.text, marker_mem_piecesFrom_questionMark hp]
        rfl

/-- Markers are bound rightly exactly when nothing that is copied from the body reads as one. -/
theorem boundRightly_iff (d : Dialect) (body : String) (style : Style) :
    (withMarkers d body style).sql = String.join ((pieces d body style).map Piece.text) ∧
      (BoundRightly style (pieces d body style) (withMarkers d body style).parameters ↔
        ∀ s, Fragment.text s ∈ fragments d body → ¬ ReadsAsMarker style s) := by
  refine ⟨sql_withMarkers d body style, ?_⟩
  cases style with
  | numbered =>
      rw [withMarkers_eq, parameters_rewriteFragments_numbered]
      exact boundRightly_numbered_iff (fragments d body)
  | questionMark =>
      rw [withMarkers_eq, parameters_rewriteFragments_questionMark]
      exact boundRightly_questionMark_iff (fragments d body)

/-- A position of the body itself is read as the position of a placeholder. -/
theorem not_boundRightly_numbered :
    pieces .postgres "select $1, :a" .numbered =
        [.copied "select", .copied " ", .copied "$1", .copied ",", .copied " ",
          .marker "$1" "a"] ∧
      ¬ BoundRightly .numbered (pieces .postgres "select $1, :a" .numbered)
        (withMarkers .postgres "select $1, :a" .numbered).parameters := by
  have hpieces : pieces .postgres "select $1, :a" .numbered =
      [.copied "select", .copied " ", .copied "$1", .copied ",", .copied " ",
        .marker "$1" "a"] := by
    decide +kernel
  refine ⟨hpieces, ?_⟩
  intro h
  rw [hpieces] at h
  have hposition : position? (Piece.copied "$1").text = some 1 := by decide +kernel
  rcases h (.copied "$1") (by simp) 1 hposition with ⟨_, name, hname, _⟩
  simp [Piece.name?] at hname

end TypedSql.Placeholder
