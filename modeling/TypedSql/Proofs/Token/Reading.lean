import TypedSql.Proofs.Token.Reread

namespace TypedSql.Lexer

open Outcome

/-! # Reading a whole text

`Reads` is what `tokens` does without places and without failures. Tokens that were read from some
text are read again from what they are written as exactly when they are rereadable.
-/

/-- The text is made of the tokens. -/
inductive Reads (d : Dialect) : List Char → List Token → Prop
  | nil : Reads d [] []
  | cons {c rest t left ts} (h : Origin d c rest t left) (hs : Reads d left ts) :
      Reads d (c :: rest) (t :: ts)

section

variable {d : Dialect} {s : List Char} {ts : List Token}

theorem lexemesFrom_eq_ok {p : Position} :
    (lexemesFrom d p s).map (·.map Lexeme.token) = .ok ts ↔ Reads d s ts := by
  fun_induction lexemesFrom d p s generalizing ts with
  | case1 p =>
      constructor
      · intro h
        cases h
        exact .nil
      · intro h
        cases h
        rfl
  | case2 p c rest fault hfault =>
      constructor
      · intro h
        simp [Except.map] at h
      · intro h
        cases h with
        | cons h _ =>
            rw [token_eq_ok.2 h] at hfault
            cases hfault
  | case3 p c rest t left htoken hlt next =>
      rename_i ih
      have horigin := token_eq_ok.1 htoken
      constructor
      · intro h
        rcases map_eq_ok.1 h with ⟨all, hall, rfl⟩
        rcases map_eq_ok.1 hall with ⟨tail, htail, rfl⟩
        exact .cons horigin (ih.1 (map_eq_ok.2 ⟨tail, htail, rfl⟩))
      · intro h
        cases h with
        | cons h hs =>
            cases htoken.symm.trans (token_eq_ok.2 h)
            rcases map_eq_ok.1 (ih.2 hs) with ⟨tail, htail, rfl⟩
            rw [htail]
            rfl
  | case4 p c rest t left htoken hlt =>
      -- Every token takes a character, so this case is empty.
      rcases (token_eq_ok.1 htoken).spelled.taken with ⟨u, rfl, _⟩
      refine absurd ?_ hlt
      rw [List.length_cons, List.length_append]
      omega

theorem tokens_eq_ok {text : String} : tokens d text = .ok ts ↔ Reads d text.toList ts :=
  lexemesFrom_eq_ok

namespace Reads

theorem agree (h : Reads d s ts) : Agree s (written ts) := by
  induction h with
  | nil => exact .nil
  | cons h _ ih => exact h.spelled.agree ih

/-- A token that is read is not written as nothing. -/
theorem chars_ne_nil (h : Reads d s ts) : ∀ t ∈ ts, t.chars ≠ [] := by
  induction h with
  | nil => exact nofun
  | cons h _ ih => exact List.forall_mem_cons.2 ⟨h.spelled.chars_ne_nil, ih⟩

theorem weight_written_le (h : Reads d s ts) : weight (written ts) ≤ weight s := by
  induction h with
  | nil => exact Nat.le_refl _
  | cons h _ ih =>
      rcases h.spelled.taken with ⟨u, rfl, hu⟩
      simp only [written_cons, weight_append, weight_cons] at ih hu ⊢
      omega

end Reads

/-- Rereadable tokens are read again. -/
theorem Reads.reread (h : Reads d s ts) (hts : Token.Rereadable d ts) :
    Reads d (written ts) ts := by
  induction h with
  | nil => exact .nil
  | cons h hs ih =>
      -- The tokens after this one are written as a text that agrees with what was left.
      rcases hts with ⟨hi, ha, hts⟩
      rcases h.reread hi ha hs.agree with ⟨x, u, hu, hread⟩
      rw [written_cons, hu]
      exact .cons hread (ih hts)

/-- Only rereadable tokens are read from what they are written as. -/
theorem Reads.rereadable (h : Reads d (written ts) ts) : Token.Rereadable d ts := by
  -- No token is written with more room than it was read from, so here each has all of it: a token
  -- and what it was read from are the same text.
  generalize hs : written ts = s at h
  induction h with
  | nil => trivial
  | @cons c rest t left ts h hread ih =>
      rcases h.spelled.taken with ⟨v, rfl, hw⟩
      have hweight := congrArg weight hs
      have hrest := hread.weight_written_le
      simp only [written_cons, weight_append, weight_cons] at hweight hw
      -- What is left and the tokens after this one are the same part of the text.
      have hsame : written ts = left := by
        refine eq_of_suffix_of_weight_eq (l := c :: (v ++ left)) ?_ ⟨c :: v, by simp⟩ (by omega)
        rw [← hs, written_cons]
        exact List.suffix_append _ _
      rw [written_cons, hsame] at hs
      have hall : t.chars ++ left = (c :: v) ++ left := by simpa using hs
      have hu : t.chars = c :: v := List.append_cancel_right hall
      rcases h.intact hu with ⟨hi, ha⟩
      exact ⟨hi, hsame ▸ ha, ih hsame⟩

theorem reads_written_iff (h : Reads d s ts) : Reads d (written ts) ts ↔ Token.Rereadable d ts :=
  ⟨Reads.rereadable, h.reread⟩

end

end TypedSql.Lexer
