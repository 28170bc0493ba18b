namespace TypedSql.Reading

/-! # Readings that succeed

The data formats are read by steps on what is left of a text. When the first of several steps
succeeds, what they give is what the others give on the rest.
-/

variable {σ ε α β : Type} {r : StateT σ (Except ε) α} {f : α → StateT σ (Except ε) β} {s t : σ}
  {a : α}

theorem run_pure (a : α) (s : σ) : (pure a : StateT σ (Except ε) α).run s = .ok (a, s) := rfl

theorem run_get (s : σ) : (get : StateT σ (Except ε) σ).run s = .ok (s, s) := rfl

theorem run_bind_of_ok (h : r.run s = .ok (a, t)) : (r >>= f).run s = (f a).run t := by
  rw [StateT.run_bind, h]
  rfl

/-- Two steps succeed when the first does and the second does on what is left. -/
theorem run_bind_eq_ok {b : β} {u : σ} :
    (r >>= f).run s = .ok (b, u) ↔ ∃ a t, r.run s = .ok (a, t) ∧ (f a).run t = .ok (b, u) := by
  rw [StateT.run_bind]
  cases hrun : r.run s with
  | error e => exact ⟨nofun, nofun⟩
  | ok pair =>
      obtain ⟨a, t⟩ := pair
      constructor
      · exact fun h => ⟨a, t, rfl, h⟩
      · rintro ⟨a', t', heq, h⟩
        cases heq
        exact h

theorem run_map_of_ok {g : α → β} (h : r.run s = .ok (a, t)) : (g <$> r).run s = .ok (g a, t) := by
  rw [StateT.run_map, h]
  rfl

end TypedSql.Reading
