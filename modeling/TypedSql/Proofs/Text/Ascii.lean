import TypedSql.Dialect
import TypedSql.Text.Blank

namespace TypedSql.Text

/-! # Character classes on ASCII

On ASCII each class is the short test that stands before its tables, and what a dialect takes into
names can be decided there.
-/

section

variable {c : Char}

theorem inRanges_of_ascii (ranges : Array (Nat × Nat)) (hc : c.toNat < 128) :
    inRanges ranges c = false := by
  rw [inRanges, Bool.and_eq_false_iff]
  exact .inl (decide_eq_false (Nat.not_le.2 hc))

theorem isAlphabetic_of_ascii (hc : c.toNat < 128) : isAlphabetic c = c.isAlpha := by
  simp [isAlphabetic, inRanges_of_ascii _ hc]

theorem isNumeral_of_ascii (hc : c.toNat < 128) : isNumeral c = c.isDigit := by
  simp [isNumeral, inRanges_of_ascii _ hc]

theorem isAlphanumeric_of_ascii (hc : c.toNat < 128) :
    isAlphanumeric c = (c.isAlpha || c.isDigit) := by
  rw [isAlphanumeric, isAlphabetic_of_ascii hc, isNumeral_of_ascii hc]

end

end TypedSql.Text
