import TypedSql.Placeholder

namespace TypedSql.Placeholder

/-! # Names among tokens

The scan for names goes on behind each placeholder that it finds. It finds the placeholder of every
place nevertheless, as no placeholder starts inside another one.
-/

section

variable {token : Token} {ts rest left : List Token} {name : String}

/-! ## Steps of the scan -/

theorem namesIn_of_some (h : placeholderAt? token rest = some (name, left)) :
    namesIn (token :: rest) = name :: namesIn left := by
  rw [namesIn]
  split
  · next h' =>
      rw [h] at h'
      cases h'
      rfl
  · next h' => simp [h] at h'

theorem namesIn_of_none (h : placeholderAt? token rest = none) :
    namesIn (token :: rest) = namesIn rest := by
  rw [namesIn]
  split
  · next h' => simp [h] at h'
  · rfl

theorem placeholderAt?_eq_some :
    placeholderAt? token rest = some (name, left) ↔
      candidate? token rest = some (name, left) ∧ name ≠ "" := by
  rw [placeholderAt?, Option.filter_eq_some_iff]
  simp

/-! ## Every place -/

/-- A placeholder takes one token or two, and none starts at the second one. -/
theorem eq_or_exists_second (h : placeholderAt? token rest = some (name, left)) :
    rest = left ∨ ∃ second, rest = second :: left ∧ placeholderAt? second left = none := by
  obtain ⟨hcandidate, _⟩ := placeholderAt?_eq_some.1 h
  unfold candidate? at hcandidate
  split at hcandidate
  · cases hcandidate
    exact .inr ⟨_, rfl, rfl⟩
  · cases hcandidate
    exact .inr ⟨_, rfl, rfl⟩
  · split at hcandidate
    · cases hcandidate
      exact .inl rfl
    · simp at hcandidate
  · simp at hcandidate

end

end TypedSql.Placeholder
