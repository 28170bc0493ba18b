import TypedSql.Proofs.TypeText.Declared

namespace TypedSql.TypeText

/-! # Rendered types

A type is rendered as the array of it, as the union of it with null, or as both. Only a text with a
space in it is put in parentheses before the mark of an array is added. Without a space the mark
belongs to the last operand of the text, and that is the whole text only where no bar stands outside
of parentheses.
-/

section

variable {s : List Char} {l : Option TypeExpr} {x ty : TypeExpr} {typeName : String}

/-! ## Texts that are one operand -/

/-- Nothing stands before the last operand of a text exactly when the text is an operand. -/
theorem endsWith_none_iff : EndsWith s none x ↔ Means .operand s x := by
  constructor
  · rintro ⟨slot, hrun, hslot⟩
    cases stackText_of_run hrun with
    | bottom hframe =>
        cases hframe with
        | first htext => exact htext.means hslot
  · intro h
    obtain ⟨slot, hslot, hrun⟩ := h.filled none []
    exact ⟨slot, hrun, hslot⟩

theorem EndsWith.unique {l' : Option TypeExpr} {x' : TypeExpr} (h : EndsWith s l x)
    (h' : EndsWith s l' x') : l = l' ∧ x = x' := by
  obtain ⟨slot, hrun, hslot⟩ := h
  obtain ⟨slot', hrun', hslot'⟩ := h'
  rw [hrun] at hrun'
  cases hrun'
  exact ⟨rfl, Option.some.inj (hslot.symm.trans hslot')⟩

/-- A text with an operand before its last one is not one operand itself. -/
theorem not_means_operand {left e : TypeExpr} (h : EndsWith s (some left) x) :
    ¬ Means .operand s e := by
  intro hoperand
  exact nomatch (h.unique (endsWith_none_iff.2 hoperand)).1

/-! ## Arrays and null -/

/-- The array of the type, or the type. -/
def TypeExpr.arrayIf (ty : TypeExpr) (array : Bool) : TypeExpr :=
  if array then .array ty else ty

theorem means_render (array : Bool) {e : TypeExpr}
    (h : Means .whole (render typeName array false).toList e) (nullable : Bool) :
    Means .whole (render typeName array nullable).toList (e.orNull nullable) := by
  cases nullable with
  | false => exact h
  | true => exact means_orNull h

theorem TypeExpr.orNull_inj {e e' : TypeExpr} {nullable : Bool}
    (h : e.orNull nullable = e'.orNull nullable) : e = e' := by
  cases nullable with
  | false => exact h
  | true => exact (TypeExpr.union.inj h).1

/-- The array of a text is the array of what the text means where the text has a space in it or is
one operand; else it is a union whose last member alone is an array. -/
theorem means_arrayOf_or (h : Means .whole typeName.toList ty) :
    (' ' ∈ typeName.toList ∨ Means .operand typeName.toList ty) ∧
        Means .whole (arrayOf typeName).toList (.array ty) ∨
      ¬ (' ' ∈ typeName.toList ∨ Means .operand typeName.toList ty) ∧
        ∃ left last, ty = .union left last ∧
          Means .whole (arrayOf typeName).toList (.union left (.array last)) := by
  obtain ⟨l, x, hends, rfl⟩ := means_iff_endsWith.1 h
  have htext := means_arrayOf hends
  rw [String.ofList_toList] at htext
  by_cases hspace : ' ' ∈ typeName.toList
  · rw [if_pos hspace] at htext
    exact .inl ⟨.inl hspace, htext⟩
  · rw [if_neg hspace] at htext
    cases l with
    | none => exact .inl ⟨.inr (endsWith_none_iff.1 hends), htext⟩
    | some left =>
        refine .inr ⟨?_, left, x, rfl, htext⟩
        rintro (hmem | hoperand)
        · exact hspace hmem
        · exact not_means_operand hends hoperand

/-- A rendered type means what is asked for exactly when the text that an array is made of has a
space in it or is one operand. Otherwise the text is a union, and only its last member becomes an
array. -/
theorem render_means_iff (h : Means .whole typeName.toList ty) (array nullable : Bool) :
    (Means .whole (render typeName array nullable).toList
        ((ty.arrayIf array).orNull nullable) ↔
      (array = true → ' ' ∈ typeName.toList ∨ Means .operand typeName.toList ty)) ∧
    ∃ e, Means .whole (render typeName array nullable).toList (e.orNull nullable) ∧
      (e = ty.arrayIf array ∨
        ∃ left last, array = true ∧ ty = .union left last ∧ e = .union left (.array last)) := by
  cases array with
  | false =>
      have hmeans := means_render false h nullable
      exact ⟨⟨fun _ harray => (nomatch harray), fun _ => hmeans⟩, ty, hmeans, .inl rfl⟩
  | true =>
      rcases means_arrayOf_or h with ⟨hkept, htext⟩ | ⟨hlost, left, last, rfl, htext⟩
      · have hmeans := means_render true htext nullable
        exact ⟨⟨fun _ _ => hkept, fun _ => hmeans⟩, .array ty, hmeans, .inl rfl⟩
      · have hmeans := means_render true htext nullable
        refine ⟨⟨fun hasked => ?_, fun hkept => absurd (hkept rfl) hlost⟩,
          .union left (.array last), hmeans, .inr ⟨left, last, rfl, rfl, rfl⟩⟩
        -- A text has one meaning, and a union is no array.
        exact nomatch TypeExpr.orNull_inj (hmeans.unique hasked)

end

/-- A literal and a union in parentheses, with spaces around the bar: the array is of both. -/
theorem render_means_spaced :
    Means .whole "'a' | (b|c)".toList
        (.union (.literal "'a'") (.union (.name "b") (.name "c"))) ∧
      render "'a' | (b|c)" true true = "('a' | (b|c))[] | null" ∧
      Means .whole (render "'a' | (b|c)" true true).toList
        (.union (.array (.union (.literal "'a'") (.union (.name "b") (.name "c"))))
          (.name "null")) := by
  have hmeans : Means .whole "'a' | (b|c)".toList
      (.union (.literal "'a'") (.union (.name "b") (.name "c"))) := means_iff.2 (by decide +kernel)
  have htext : render "'a' | (b|c)" true true = "('a' | (b|c))[] | null" := by
    simp only [render, arrayOf, String.contains_char_eq]
    decide
  exact ⟨hmeans, htext, (render_means_iff hmeans true true).1.2 fun _ => .inl (by decide)⟩

/-- The array of a union without spaces is the union with the array of its last member. -/
theorem render_means_tight :
    Means .whole "A|B".toList (.union (.name "A") (.name "B")) ∧
      render "A|B" true false = "A|B[]" ∧
      Means .whole "A|B[]".toList (.union (.name "A") (.array (.name "B"))) ∧
      ¬ Means .whole "A|B[]".toList (.array (.union (.name "A") (.name "B"))) := by
  refine ⟨means_iff.2 (by decide +kernel), ?_, means_iff.2 (by decide +kernel), ?_⟩
  · simp only [render, arrayOf, String.contains_char_eq]
    decide
  · rw [means_iff]
    decide +kernel

end TypedSql.TypeText
