import TypedSql.Json.Number
import TypedSql.Proofs.Json.Reading

namespace TypedSql.Json

open Reader Reading

/-! # Written natural numbers are read again

The digits of a natural number are taken up to the first character that is no digit, and they give
the number back as long as sixty-four bits hold it.
-/

variable {c : Char} {digits rest : List Char} {n limit : Nat}

/-! ## Digits -/

theorem le_ofDigitChars (digits : List Char) (n : Nat) : n ≤ Nat.ofDigitChars 10 digits n := by
  induction digits generalizing n with
  | nil => exact Nat.le_refl n
  | cons c digits ih =>
      rw [Nat.ofDigitChars_cons]
      exact Nat.le_trans (by omega) (ih _)

/-- All digits are taken when the number that they make is within the limit. -/
theorem takeDigits_append (hdigits : ∀ c ∈ digits, c.isDigit = true)
    (hlimit : Nat.ofDigitChars 10 digits n ≤ limit) (hrest : Ends rest) :
    takeDigits limit n (digits ++ rest) = (Nat.ofDigitChars 10 digits n, rest) := by
  induction digits generalizing n with
  | nil =>
      cases rest with
      | nil => rfl
      | cons c rest =>
          have hc : c.isDigit = false := (hrest c rfl).1
          simp [takeDigits, hc]
  | cons c digits ih =>
      have hvalue : n * 10 + digitValue c = 10 * n + (c.toNat - '0'.toNat) := by
        rw [digitValue, Nat.mul_comm]
      rw [Nat.ofDigitChars_cons] at hlimit ⊢
      have hfits : n * 10 + digitValue c ≤ limit := by
        rw [hvalue]
        exact Nat.le_trans (le_ofDigitChars digits _) hlimit
      rw [List.cons_append, takeDigits]
      simp only [hdigits c List.mem_cons_self, hfits, decide_true, Bool.and_self, if_true]
      rw [hvalue]
      exact ih (fun d hd => hdigits d (List.mem_cons_of_mem c hd)) hlimit

/-- Only zero starts with a zero. -/
theorem head_toDigits (hn : n ≠ 0) : ∀ c ∈ (Nat.toDigits 10 n).head?, c ≠ '0' := by
  induction n using Nat.strongRecOn with
  | ind n ih =>
      by_cases hlt : n < 10
      · have hchar : ∀ m, m < 10 → m ≠ 0 → m.digitChar ≠ '0' := by decide
        rw [Nat.toDigits_of_lt_base hlt]
        rintro c ⟨⟩
        exact hchar n hlt hn
      · intro c hc
        have hfront := ih (n / 10) (by omega) (by omega)
        rw [Nat.toDigits_of_base_le (by decide) (Nat.le_of_not_lt hlt)] at hc
        obtain ⟨d, more, hwritten⟩ :=
          List.exists_cons_of_ne_nil (Nat.toDigits_ne_nil (b := 10) (n := n / 10))
        rw [hwritten] at hc hfront
        exact hfront c hc

/-! ## Numbers -/

theorem run_numberEnd (hrest : Ends rest) :
    (numberEnd false n).run rest = .ok (.integer n, rest) := by
  rw [numberEnd, run_bind_of_ok (run_peek rest)]
  split
  · next h => exact absurd rfl (hrest _ h).2.1
  · next h => exact absurd rfl (hrest _ h).2.2.1
  · next h => exact absurd rfl (hrest _ h).2.2.2
  · rfl

theorem run_countDigits (hrest : Ends rest) : countDigits.run rest = .ok (0, rest) := by
  have hnone : rest.takeWhile Char.isDigit = [] ∧ rest.dropWhile Char.isDigit = rest := by
    cases rest with
    | nil => exact ⟨rfl, rfl⟩
    | cons c rest =>
        have hc : c.isDigit = false := (hrest c rfl).1
        exact ⟨List.takeWhile_cons_of_neg (by simp [hc]), List.dropWhile_cons_of_neg (by simp [hc])⟩
  show Except.ok ((rest.takeWhile Char.isDigit).length, rest.dropWhile Char.isDigit) = _
  rw [hnone.1, hnone.2]
  rfl

/-- A number that is not zero, from its first digit on. -/
theorem run_unsigned (hn : n ≠ 0) (hlimit : n ≤ maxNatural) (hrest : Ends rest) :
    (unsigned false).run (Nat.toDigits 10 n ++ rest) = .ok (.integer n, rest) := by
  have hdigits : ∀ c ∈ Nat.toDigits 10 n, c.isDigit = true := fun c hc =>
    Nat.isDigit_of_mem_toDigits (by decide) (by decide) hc
  have hvalue := Nat.ofDigitChars_ten_toDigits (n := n)
  have htake : takeDigits maxNatural 0 (Nat.toDigits 10 n ++ rest) = (n, rest) := by
    rw [takeDigits_append hdigits (by rwa [hvalue]) hrest, hvalue]
  have hwithin : (digitsWithin maxNatural 0).run (Nat.toDigits 10 n ++ rest) =
      .ok ((n, (Nat.toDigits 10 n ++ rest).length - rest.length), rest) := by
    show Except.ok (((takeDigits maxNatural 0 (Nat.toDigits 10 n ++ rest)).1,
      _ - (takeDigits maxNatural 0 (Nat.toDigits 10 n ++ rest)).2.length),
      (takeDigits maxNatural 0 (Nat.toDigits 10 n ++ rest)).2) = _
    rw [htake]
  obtain ⟨c, more, hwritten, hc⟩ := exists_toDigits n
  have hzero : c ≠ '0' := head_toDigits hn c (by rw [hwritten]; rfl)
  have hpeek : peek.run (Nat.toDigits 10 n ++ rest) = .ok (some c, Nat.toDigits 10 n ++ rest) := by
    rw [hwritten]
    rfl
  rw [unsigned, run_bind_of_ok hpeek]
  split
  · next h => cases h
  · next h => exact absurd (Option.some.inj h) hzero
  · next d _ h =>
      obtain rfl := Option.some.inj h
      rw [if_neg (by simp [hc]), run_bind_of_ok hwithin]
      show (countDigits >>= fun _ => _).run rest = _
      rw [run_bind_of_ok (run_countDigits hrest)]
      exact run_numberEnd hrest

theorem run_unsigned_zero (hrest : Ends rest) :
    (unsigned false).run ('0' :: rest) = .ok (.integer 0, rest) := by
  have hpeek : peek.run ('0' :: rest) = .ok (some '0', '0' :: rest) := rfl
  rw [unsigned, run_bind_of_ok hpeek]
  show ((drop : Reader Unit) >>= fun _ => _).run ('0' :: rest) = _
  rw [run_bind_of_ok (run_drop _ _), run_bind_of_ok (run_peek rest)]
  split
  · next c h =>
      rw [if_neg (by simp [(hrest c h).1])]
      exact run_numberEnd hrest
  · exact run_numberEnd hrest

/-- A natural number of sixty-four bits. -/
theorem run_number (hlimit : n ≤ maxNatural) (hrest : Ends rest) :
    number.run (writeInteger n ++ rest) = .ok (.integer n, rest) := by
  have hunsigned : (unsigned false).run (writeInteger n ++ rest) = .ok (.integer n, rest) := by
    rw [writeInteger_natural]
    by_cases hn : n = 0
    · subst hn
      exact run_unsigned_zero hrest
    · exact run_unsigned hn hlimit hrest
  obtain ⟨c, more, hwritten, hc⟩ := exists_writeInteger_natural n
  rw [number, run_bind_of_ok (run_peek _)]
  split
  · next h =>
      rw [hwritten] at h
      cases Option.some.inj h
      cases hc
  · exact hunsigned

end TypedSql.Json
