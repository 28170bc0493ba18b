import TypedSql.Bindings
import TypedSql.Proofs.Placeholder.Positions
import TypedSql.Proofs.TypeText.Grammar

namespace TypedSql.TypeText

open Text

/-! # Declared types keep their meaning

A declared type is taken apart at the array mark that ends it and put together again in the field of
the parameter. The mark belongs to the last operand of a union; when the union has a space in it, it
comes back with parentheses around all operands. In that case alone the meaning changes.
-/

section

variable {left l : Option TypeExpr} {slot : Slot} {outer : List Frame} {e x ty : TypeExpr}
  {s : List Char} {c : Char}

/-! ## The last operand of a text -/

/-- A text is read as an operand after the operands before the last bar. -/
def EndsWith (s : List Char) (l : Option TypeExpr) (x : TypeExpr) : Prop :=
  ∃ slot, run [.start] s = some [⟨l, slot⟩] ∧ slot.value? = some x

/-- A text with a meaning ends with an operand that is joined to what is on its left. -/
theorem means_iff_endsWith : Means .whole s e ↔ ∃ l x, EndsWith s l x ∧ e = joined l x := by
  rw [means_iff]
  constructor
  · intro h
    unfold read at h
    split at h
    · next f hrun =>
        obtain ⟨x, hslot, rfl⟩ := Option.map_eq_some_iff.1 h
        exact ⟨f.left, x, ⟨f.slot, hrun, hslot⟩, rfl⟩
    · cases h
  · rintro ⟨l, x, ⟨slot, hrun, hslot⟩, rfl⟩
    simp [read, hrun, Frame.value?, hslot]

/-- The state before a blank has the operand that the state after it has. -/
theorem value?_of_step_blank {slot' : Slot} {frames : List Frame} (hc : isBlank c = true)
    (hstack : StackText frames s) (hstep : step frames c = some [⟨l, slot'⟩])
    (hvalue : slot'.value? = some x) : ∃ slot, frames = [⟨l, slot⟩] ∧ slot.value? = some x := by
  cases frames with
  | nil => cases hstep
  | cons f outer =>
      obtain ⟨left, slot⟩ := f
      cases hslot : slot.value? with
      | some y =>
          rw [step_blank hslot hc] at hstep
          cases hstep
          exact ⟨slot, rfl, hslot.trans hvalue⟩
      | none =>
          obtain ⟨front, t, rfl, ht, -⟩ := hstack.innermost
          cases ht with
          | empty =>
              simp only [step, hc, if_true] at hstep
              cases hstep
              cases hvalue
          | name => cases hslot
          | @literal quote _ _ _ hopened =>
              -- A blank does not close a literal.
              have hne : c ≠ quote := by
                rintro rfl
                rcases isQuote_iff.1 hopened.1 with rfl | rfl <;> revert hc <;> decide
              simp only [step, if_neg hne] at hstep
              cases hstep
              cases hvalue
          | escaped =>
              cases hstep
              cases hvalue
          | bracket =>
              simp only [step, hc, if_true] at hstep
              cases hstep
              cases hvalue
          | done => cases hslot

/-- What is read from the start on is the text of the frames. -/
theorem stackText_of_run {frames : List Frame} (h : run [.start] s = some frames) :
    StackText frames s := by
  have hempty : StackText [.start] [] := .bottom (.first (.empty (by simp)))
  exact hempty.run h

/-- A blank at the end makes no difference to how a text ends. -/
theorem endsWith_append_blank (hc : isBlank c = true) :
    EndsWith (s ++ [c]) l x ↔ EndsWith s l x := by
  constructor
  · rintro ⟨slot', hrun, hvalue⟩
    rw [run_append] at hrun
    obtain ⟨frames, hfront, hlast⟩ := Option.bind_eq_some_iff.1 hrun
    have hstep : step frames c = some [⟨l, slot'⟩] := by simpa using hlast
    obtain ⟨slot, rfl, hslot⟩ := value?_of_step_blank hc (stackText_of_run hfront) hstep hvalue
    exact ⟨slot, hfront, hslot⟩
  · rintro ⟨slot, hrun, hslot⟩
    refine ⟨.done x, ?_, rfl⟩
    rw [run_append, hrun]
    simp [step_blank hslot hc]

/-- A closing bracket ends an operand only where an opening one stands before it. -/
theorem bracket_of_step {slot' : Slot} {frames : List Frame} (hstack : StackText frames s)
    (hstep : step frames ']' = some [⟨l, slot'⟩]) (hvalue : slot'.value? = some x) :
    ∃ y, frames = [⟨l, .bracket y⟩] ∧ x = .array y := by
  have hblank : isBlank ']' = false := by decide
  have hpart : isNamePart ']' = false := isNamePart_eq_false (by decide)
  have hquote : isQuote ']' = false := by decide
  cases frames with
  | nil => cases hstep
  | cons f outer =>
      obtain ⟨left, slot⟩ := f
      obtain ⟨front, t, rfl, ht, -⟩ := hstack.innermost
      -- Nothing but an opened bracket and a literal takes the character, and that stays open.
      cases ht with
      | empty => simp [step, hblank, hpart, hquote] at hstep
      | name => simp [step, stepAfter, hblank, hpart] at hstep
      | @literal quote _ _ _ hopened =>
          have hne : ']' ≠ quote := by
            rintro rfl
            exact absurd hopened.1 (by simp [hquote])
          simp only [step, if_neg hne] at hstep
          cases hstep
          cases hvalue
      | escaped =>
          cases hstep
          cases hvalue
      | @bracket _ _ y =>
          simp only [step, hblank] at hstep
          cases hstep
          cases hvalue
          exact ⟨y, rfl, rfl⟩
      | done => simp [step, stepAfter, hblank] at hstep

/-- An opening bracket stands after an operand. -/
theorem value?_of_step_bracket {y : TypeExpr} {frames : List Frame}
    (hstep : step frames '[' = some [⟨l, .bracket y⟩]) :
    ∃ slot, frames = [⟨l, slot⟩] ∧ slot.value? = some y := by
  have hblank : isBlank '[' = false := by decide
  have hpart : isNamePart '[' = false := isNamePart_eq_false (by decide)
  have hquote : isQuote '[' = false := by decide
  cases frames with
  | nil => cases hstep
  | cons f outer =>
      obtain ⟨left, slot⟩ := f
      cases hslot : slot.value? with
      | some z =>
          rw [step_bracket hslot] at hstep
          cases hstep
          exact ⟨slot, rfl, hslot⟩
      | none =>
          cases slot with
          | empty => simp [step, hblank, hpart, hquote] at hstep
          | name => cases hslot
          | literal quote gathered escaped =>
              cases escaped with
              | true => simp [step] at hstep
              | false =>
                  simp only [step] at hstep
                  split at hstep <;> simp at hstep
          | bracket => simp [step, hblank] at hstep
          | done => cases hslot

/-- A text that ends in an array mark ends with an array. -/
theorem endsWith_mark : EndsWith (s ++ ['[', ']']) l x ↔ ∃ y, EndsWith s l y ∧ x = .array y := by
  constructor
  · rintro ⟨slot', hrun, hvalue⟩
    rw [run_append] at hrun
    obtain ⟨frames, hfront, hmark⟩ := Option.bind_eq_some_iff.1 hrun
    obtain ⟨opened, hopen, hlast⟩ := Option.bind_eq_some_iff.1 hmark
    have hclose : step opened ']' = some [⟨l, slot'⟩] := by simpa using hlast
    have hopened : StackText opened (s ++ ['[']) := by
      refine stackText_of_run ?_
      rw [run_append, hfront]
      simp [hopen]
    obtain ⟨y, rfl, rfl⟩ := bracket_of_step hopened hclose hvalue
    obtain ⟨slot, rfl, hslot⟩ := value?_of_step_bracket hopen
    exact ⟨y, ⟨slot, hfront, hslot⟩, rfl⟩
  · rintro ⟨y, ⟨slot, hrun, hslot⟩, rfl⟩
    refine ⟨.done (.array y), ?_, rfl⟩
    have hclose : step [⟨l, .bracket y⟩] ']' = some [⟨l, .done (.array y)⟩] := rfl
    rw [run_append, hrun, Option.bind_some, run_cons, step_bracket hslot, Option.bind_some,
      run_cons, hclose]
    rfl

/-- An array mark is put after a type, in parentheses if there is a blank in the type. -/
theorem arrayOf_toList (s : List Char) :
    (arrayOf (String.ofList s)).toList =
      if ' ' ∈ s then '(' :: (s ++ [')']) ++ ['[', ']'] else s ++ ['[', ']'] := by
  unfold arrayOf arrayMark
  rw [String.contains_char_eq, String.toList_ofList]
  by_cases h : ' ' ∈ s <;> simp [h, String.toList_append]

/-- With a space in it, a text is put in parentheses as a whole. -/
theorem means_arrayOf (h : EndsWith s l x) :
    Means .whole (arrayOf (String.ofList s)).toList
      (if ' ' ∈ s then .array (joined l x) else joined l (.array x)) := by
  rw [arrayOf_toList]
  by_cases hspace : ' ' ∈ s
  · rw [if_pos hspace, if_pos hspace]
    have hgroup : Means .operand ('(' :: (s ++ [')'])) (joined l x) :=
      .group (means_iff_endsWith.2 ⟨l, x, h, rfl⟩)
    exact .single (.array hgroup (List.forall_mem_nil _))
  · rw [if_neg hspace, if_neg hspace]
    exact means_iff_endsWith.2 ⟨l, .array x, endsWith_mark.2 ⟨x, h, rfl⟩, rfl⟩

end

/-! ## What a declaration is rendered as -/

/-- The type, or the union of it with null. -/
def TypeExpr.orNull (ty : TypeExpr) (nullable : Bool) : TypeExpr :=
  if nullable then .union ty (.name "null") else ty

/-- A type that may be null means the type or null. -/
theorem means_orNull {base : String} {ty : TypeExpr} (h : Means .whole base.toList ty) :
    Means .whole (base ++ " | null").toList (.union ty (.name "null")) := by
  have hparts : "null".toList.all isNamePart = true := by decide +kernel
  have hnull : Means .operand "null".toList (.name "null") :=
    .name (by decide) (List.all_eq_true.1 hparts)
  obtain ⟨l, x, hends, rfl⟩ := means_iff_endsWith.1 h
  have hbase : Means .whole (base.toList ++ [' ']) (joined l x) :=
    means_iff_endsWith.2 ⟨l, x, (endsWith_append_blank (by decide)).2 hends, rfl⟩
  have hunion := Means.union hbase (.blankBefore (c := ' ') (by decide) hnull)
  simpa [String.toList_append] using hunion

section

variable {declared : String} {ty : TypeExpr}

end

/-! ## The field of a declared parameter -/

/-- The front matter declares the parameter: under its name, or only under its name and a question
mark, which lets it be null. -/
def Declares (metadata : Keyed String) (p declared : String) : Bool → Prop
  | false => metadata.get? p = some declared
  | true => metadata.get? p = none ∧ metadata.get? (p ++ "?") = some declared

end TypedSql.TypeText
