import TypedSql.Grammar

namespace TypedSql.Grammar

/-! # Readings run on lexemes

What the steps of a reading give on the lexemes that are left, and what a reading of several steps
gives when the outcome of the first one is known.
-/

section

variable {α β : Type} {p : Parse α} {f : α → Parse β} {left rest : List Lexeme} {a : α}
  {e : SyntaxError}

/-! ## Steps one after another -/

/-- A value that is given reads nothing. -/
@[simp] theorem run_pure (a : α) (left : List Lexeme) :
    (pure a : Parse α).run left = (.ok a, left) :=
  rfl

/-- A second reading starts where the first one has ended. -/
theorem run_bind (p : Parse α) (f : α → Parse β) (left : List Lexeme) :
    (p >>= f).run left =
      match p.run left with
      | (.ok a, rest) => (f a).run rest
      | (.error e, rest) => (.error e, rest) :=
  rfl

theorem run_bind_of_ok (h : p.run left = (.ok a, rest)) : (p >>= f).run left = (f a).run rest := by
  rw [run_bind, h]

theorem run_bind_of_error (h : p.run left = (.error e, rest)) :
    (p >>= f).run left = (.error e, rest) := by
  rw [run_bind, h]

theorem run_map (f : α → β) (p : Parse α) (left : List Lexeme) :
    (f <$> p).run left = ((p.run left).1.map f, (p.run left).2) := by
  cases h : (p.run left).1 with
  | error e =>
      have hrun : p.run left = (.error e, (p.run left).2) := Prod.ext h rfl
      exact run_bind_of_error hrun
  | ok a =>
      have hrun : p.run left = (.ok a, (p.run left).2) := Prod.ext h rfl
      exact run_bind_of_ok hrun

/-- A reading of two steps succeeds when the first does, and the second from where it stopped. -/
theorem run_bind_eq_ok {b : β} :
    (p >>= f).run left = (.ok b, rest) ↔
      ∃ a between, p.run left = (.ok a, between) ∧ (f a).run between = (.ok b, rest) := by
  constructor
  · intro h
    cases hp : (p.run left).1 with
    | error e =>
        rw [run_bind_of_error (Prod.ext hp rfl : p.run left = (.error e, (p.run left).2))] at h
        cases h
    | ok a =>
        have hrun : p.run left = (.ok a, (p.run left).2) := Prod.ext hp rfl
        rw [run_bind_of_ok hrun] at h
        exact ⟨a, _, hrun, h⟩
  · rintro ⟨a, between, hp, hf⟩
    rw [run_bind_of_ok hp, hf]

/-- Readings are the same where they give the same on all lexemes. -/
theorem parse_ext {p q : Parse α} (h : ∀ left, p.run left = q.run left) : p = q := by
  cases p
  cases q
  congr 1
  exact funext h

instance : LawfulMonad Parse := by
  refine LawfulMonad.mk' Parse ?_ ?_ ?_
  · intro α p
    refine parse_ext fun left => ?_
    rw [run_map]
    cases h : (p.run left).1 <;> exact Prod.ext h.symm rfl
  · intro α β a f
    rfl
  · intro α β γ p f g
    refine parse_ext fun left => ?_
    rw [run_bind, run_bind, run_bind]
    rcases p.run left with ⟨e | a, rest⟩ <;> rfl

/-- A reading that does not fail gives a value. -/
theorem exists_run_of_isOk (p : Parse α) (left : List Lexeme) (h : (p.run left).1.isOk = true) :
    ∃ a, p.run left = (.ok a, (p.run left).2) := by
  cases hrun : (p.run left).1 with
  | error e =>
      rw [hrun] at h
      cases h
  | ok a => exact ⟨a, Prod.ext hrun rfl⟩

/-! ## Keywords -/

/-- The keyword that is next; it is empty where none is. -/
def firstKeyword (left : List Lexeme) : String := keywordOf (tokenOf (lexemeAhead 0 left))

/-- Looking ahead reads nothing. -/
theorem run_peekToken (n : Nat) (left : List Lexeme) :
    (peekToken n).run left = (.ok (tokenOf (lexemeAhead n left)), left) :=
  rfl

/-- A keyword is taken where it comes first. -/
theorem run_keyword?_of_eq {word : String} (h : firstKeyword left = word) :
    (keyword? word).run left = (.ok true, (afterGaps left).tail) := by
  have hpeek : peekKeyword.run left = (.ok (firstKeyword left), left) := rfl
  rw [keyword?, run_bind_of_ok hpeek, if_pos (beq_iff_eq.2 h)]
  rfl

/-- A keyword is not taken where another word comes first. -/
theorem run_keyword?_of_ne {word : String} (h : firstKeyword left ≠ word) :
    (keyword? word).run left = (.ok false, left) := by
  have hpeek : peekKeyword.run left = (.ok (firstKeyword left), left) := rfl
  rw [keyword?, run_bind_of_ok hpeek, if_neg (by simpa using h)]
  rfl

/-- A row of keywords is not taken where another word comes first. -/
theorem run_keywords?_of_ne {word : String} {words : List String} (h : firstKeyword left ≠ word) :
    (keywords? (word :: words)).run left = (.ok false, left) := by
  have hat : (atKeywords (word :: words)).run left = (.ok false, left) := by
    have hfirst : (keywordOf (tokenOf (lexemeAhead 0 left)) == word) = false := by
      simpa [firstKeyword] using h
    have hall : ((word :: words).zipIdx.all fun listed =>
        keywordOf (tokenOf (lexemeAhead listed.2 left)) == listed.1) = false := by
      simp [hfirst]
    exact congrArg (fun b => (Except.ok b, left)) hall
  rw [keywords?, run_bind_of_ok hat]
  rfl

/-- A keyword that is next is the keyword of a word. -/
theorem exists_word_of_firstKeyword {word : String} (hword : word ≠ "")
    (h : firstKeyword left = word) :
    ∃ w : Word, tokenOf (lexemeAhead 0 left) = some (.word w) ∧ w.keyword = word := by
  unfold firstKeyword keywordOf at h
  split at h
  · next w heq => exact ⟨w, heq, h⟩
  · exact absurd h.symm hword

end

/-! ## Statements by their first keyword -/

section

variable {left rest : List Lexeme} {word : String}

/-- A statement that does not start with a lock is none on locks. -/
theorem run_tableLocks? (d : Dialect) (hlock : firstKeyword left ≠ "LOCK")
    (hunlock : firstKeyword left ≠ "UNLOCK") : (tableLocks? d).run left = (.ok none, left) := by
  unfold tableLocks?
  split
  · rfl
  · rw [run_bind_of_ok (run_keywords?_of_ne hlock), if_neg (by simp),
      run_bind_of_ok (run_keywords?_of_ne hunlock)]
    rfl

/-- A statement on rows is read as its first keyword says. -/
theorem run_statement {inner : Level} {read : Parse Statement} (h : firstKeyword left = word)
    (hword : word ∉ ["", "LOCK", "UNLOCK"]) (hread : rowStatement? inner word = some read) :
    (statement inner).run left = read.run left := by
  simp only [List.mem_cons, List.not_mem_nil, or_false, not_or] at hword
  obtain ⟨hempty, hlock, hunlock⟩ := hword
  subst h
  obtain ⟨w, htoken, hkeyword⟩ := exists_word_of_firstKeyword hempty rfl
  have hpeek : (peekToken 0).run left = (.ok (some (.word w)), left) := by
    rw [run_peekToken, htoken]
  rw [statement, run_bind_of_ok (run_tableLocks? inner.dialect hlock hunlock)]
  simp only
  rw [run_bind_of_ok hpeek]
  simp only [hkeyword, hread]

end

/-! ## Levels -/

/-- Queries of a level nest those of the level below. -/
theorem levels_query (d : Dialect) (depth : Nat) :
    (levels d (depth + 1)).query = query (levels d depth) :=
  rfl

/-- Statements of a level nest those of the level below. -/
theorem levels_statement (d : Dialect) (depth : Nat) :
    (levels d (depth + 1)).statement = statement (levels d depth) :=
  rfl

end TypedSql.Grammar
