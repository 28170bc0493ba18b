import Mathlib.Data.List.Forall2

namespace TypedSql.Outcome

/-! # Outcomes taken apart

What a result that may be a failure says about the steps that it was put together from.
-/

section

variable {ε δ α β : Type}

/-- A mapped outcome is one that was there before. -/
theorem map_eq_ok {x : Except ε α} {f : α → β} {b : β} :
    x.map f = .ok b ↔ ∃ a, x = .ok a ∧ f a = b := by
  cases x with
  | error e => simp [Except.map]
  | ok a => simp [Except.map]

/-- A failure is the same whatever would have been made of the result. -/
theorem map_eq_error {x : Except ε α} {f : α → β} {e : ε} :
    x.map f = .error e ↔ x = .error e := by
  cases x with
  | error e' => simp [Except.map]
  | ok a => simp [Except.map]

/-- A result is the same when failures are told in another way. -/
theorem mapError_eq_ok {x : Except ε α} {f : ε → δ} {a : α} : x.mapError f = .ok a ↔ x = .ok a := by
  cases x with
  | error e => exact ⟨nofun, nofun⟩
  | ok b => exact ⟨fun h => congrArg Except.ok (Except.ok.inj h), fun h =>
      congrArg Except.ok (Except.ok.inj h)⟩

/-- Where no result is there is a failure. -/
theorem exists_eq_error {x : Except ε α} (h : x.toOption = none) : ∃ e, x = .error e := by
  cases x with
  | error e => exact ⟨e, rfl⟩
  | ok b => simp [Except.toOption] at h

/-- Two steps give a result when the first does and the second does on it. -/
theorem bind_eq_ok {x : Except ε α} {f : α → Except ε β} {b : β} :
    x.bind f = .ok b ↔ ∃ a, x = .ok a ∧ f a = .ok b := by
  cases x with
  | error e => simp [Except.bind]
  | ok a => simp [Except.bind]

theorem eq_ok_of_toOption {x : Except ε α} {a : α} (h : x.toOption = some a) : x = .ok a := by
  cases x with
  | error e => simp [Except.toOption] at h
  | ok b => exact congrArg Except.ok (Option.some.inj h)

end

/-! ## One outcome for each element -/

section

variable {ε α β : Type} {f : α → Except ε β} {as : List α}

/-- The first outcome of a list comes before the others. -/
theorem mapM_cons (a : α) (as : List α) :
    (a :: as).mapM f = (f a).bind fun b => (as.mapM f).map (b :: ·) := by
  rw [List.mapM_cons]
  cases f a with
  | error e => rfl
  | ok b => cases as.mapM f <;> rfl

/-- There is a result for a list when there is one for its first element and for the others. -/
theorem mapM_cons_eq_ok {a : α} {cs : List β} (h : (a :: as).mapM f = .ok cs) :
    ∃ b bs, cs = b :: bs ∧ f a = .ok b ∧ as.mapM f = .ok bs := by
  rw [mapM_cons] at h
  obtain ⟨b, hb, h⟩ := bind_eq_ok.1 h
  obtain ⟨bs, hbs, rfl⟩ := map_eq_ok.1 h
  exact ⟨b, bs, rfl, hb, hbs⟩

theorem mapM_cons_eq_error {a : α} {e : ε} (h : f a = .error e) :
    (a :: as).mapM f = .error e := by
  rw [mapM_cons, h]
  rfl

/-- There are as many results as elements. -/
theorem length_of_mapM_eq_ok {bs : List β} (h : as.mapM f = .ok bs) : bs.length = as.length := by
  induction as generalizing bs with
  | nil =>
      cases h
      rfl
  | cons a as ih =>
      obtain ⟨b, bs, rfl, _, has⟩ := mapM_cons_eq_ok h
      simp [ih has]

/-- Results of all elements make a result of the list. -/
theorem mapM_eq_ok_of_forall₂ {bs : List β} (h : List.Forall₂ (fun a b => f a = .ok b) as bs) :
    as.mapM f = .ok bs := by
  induction h with
  | nil => rfl
  | cons hfirst _ ih =>
      rw [mapM_cons, hfirst, ih]
      rfl

/-- A step of a run that gives a result. -/
theorem foldlM_cons_of_eq_ok {step : β → α → Except ε β} {a : α} {b c : β} (h : step b a = .ok c) :
    (a :: as).foldlM step b = as.foldlM step c := by
  rw [List.foldlM_cons, h]
  rfl

/-- The failure of a list is that of its first element that fails. -/
theorem exists_of_mapM_eq_error {e : ε} (h : as.mapM f = .error e) :
    ∃ before a after, as = before ++ a :: after ∧ (∀ x ∈ before, ∃ b, f x = .ok b) ∧
      f a = .error e := by
  induction as with
  | nil => cases h
  | cons a as ih =>
      rw [mapM_cons] at h
      cases ha : f a with
      | error e' =>
          rw [ha] at h
          cases h
          exact ⟨[], a, as, rfl, by simp, ha⟩
      | ok b =>
          -- The first element has an outcome, so the failure is one of the others.
          rw [ha] at h
          have has := map_eq_error.1 h
          obtain ⟨before, x, after, rfl, hbefore, hx⟩ := ih has
          refine ⟨a :: before, x, after, rfl, ?_, hx⟩
          intro y hy
          rcases List.mem_cons.1 hy with rfl | hy
          · exact ⟨b, ha⟩
          · exact hbefore y hy

end

end TypedSql.Outcome
