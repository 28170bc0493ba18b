import TypedSql.Proofs.Faithful.Values
import TypedSql.Proofs.Grammar.Reading

namespace TypedSql.Grammar

/-! # Faithful readings

A reading is faithful when what it gives is read from the lexemes of a text wherever it starts in
them. Steps one after another are faithful when each of them is, given that the values before it are
read from the text, and so are the ways to read rows, groups and alternatives.
-/

/-- What a reading gives is read from lexemes wherever it starts in them. -/
def Faithful {α : Type} [HasLiterals α] (all : List Lexeme) (p : Parse α) : Prop :=
  ∀ left rest a, left <:+ all → p.run left = (.ok a, rest) → ReadFrom all a

/-- A reading stays in the text that it starts in, also where it fails. -/
theorem suffix_of_run {α : Type} {all left rest : List Lexeme} {p : Parse α}
    {outcome : Except SyntaxError α} (h : p.run left = (outcome, rest)) (hleft : left <:+ all) :
    rest <:+ all := by
  have hsuffix := p.suffix left
  rw [h] at hsuffix
  exact hsuffix.trans hleft

section

variable {α β : Type} [HasLiterals α] [HasLiterals β] {all : List Lexeme} {p : Parse α}
  {f : α → Parse β} {a : α}

/-! ## Steps -/

/-- A reading that gives no constants is faithful, whatever it does. -/
@[simp] theorem faithful_plain [NoLiterals α] (p : Parse α) : Faithful all p :=
  fun _ _ a _ _ => readFrom_plain a

/-- A value that is given without reading is to be read from the text already. -/
@[simp] theorem faithful_pure : Faithful all (pure a : Parse α) ↔ ReadFrom all a := by
  constructor
  · intro h
    exact h [] [] a (List.nil_suffix) rfl
  · intro h left rest b _ hrun
    cases hrun
    exact h

/-- Two steps are faithful when the first is, and the second is for each value read from the
text. -/
theorem Faithful.bind (hp : Faithful all p) (hf : ∀ a, ReadFrom all a → Faithful all (f a)) :
    Faithful all (p >>= f) := by
  intro left rest b hleft hrun
  obtain ⟨a, between, ha, hb⟩ := run_bind_eq_ok.1 hrun
  have hread : ReadFrom all a := hp left between a hleft ha
  exact hf a hread between rest b (suffix_of_run ha hleft) hb

/-- A step that gives no constants may be passed over. -/
theorem Faithful.skip {p : Parse α} [NoLiterals α] (hf : ∀ a, Faithful all (f a)) :
    Faithful all (p >>= f) :=
  (faithful_plain p).bind fun a _ => hf a

/-- A step that is taken under a condition, such as a clause that only some dialects have, is faithful
whether it is taken or another one is in its place. -/
theorem Faithful.either {c : Prop} [Decidable c] {q : Parse α} (hp : Faithful all p)
    (hq : Faithful all q) (hf : ∀ a, ReadFrom all a → Faithful all (f a)) :
    Faithful all (if c then p >>= f else q >>= f) := by
  split
  · exact hp.bind hf
  · exact hq.bind hf

/-- A reading that fails gives nothing, so that nothing is to be said of it. -/
@[simp] theorem faithful_throw (e : SyntaxError) : Faithful all (throw e : Parse α) := by
  intro left rest a _ hrun
  cases hrun

/-- What is made of a value holds placeholders of that value only. -/
@[simp] theorem faithful_map {f : α → β} (hp : Faithful all p)
    (hf : ∀ a, ReadFrom all a → ReadFrom all (f a)) : Faithful all (f <$> p) := by
  rw [← bind_pure_comp]
  exact hp.bind fun a ha => by simpa using hf a ha

@[simp] theorem faithful_some (hp : Faithful all p) : Faithful all (some <$> p) :=
  faithful_map hp fun a ha => by simpa using ha

/-! ## Failures -/

@[simp] theorem faithful_unexpected (expected : String) (found : Option Lexeme) :
    Faithful all (unexpected expected found : Parse α) :=
  faithful_throw _

@[simp] theorem faithful_failHere (expected : String) :
    Faithful all (failHere expected : Parse α) :=
  .skip fun _ => by simp

@[simp] theorem faithful_failNext (expected : String) :
    Faithful all (failNext expected : Parse α) :=
  .skip fun _ => by simp

@[simp] theorem faithful_refuseHere (reason : String) :
    Faithful all (refuseHere reason : Parse α) :=
  .skip fun _ => by simp

/-! ## Alternatives -/

/-- What may be read is read as the reading that is tried would read it, or not at all. -/
@[simp] theorem faithful_maybe (hp : Faithful all p) : Faithful all (maybe p) := by
  intro left rest a hleft hrun
  simp only [maybe] at hrun
  split at hrun
  · next heq =>
      cases hrun
      simpa using hp left _ _ hleft heq
  · cases hrun
  · cases hrun
    simp

/-- A reading that is put back where it fails gives what it would give. -/
@[simp] theorem faithful_restored (hp : Faithful all p) : Faithful all (restored p) := by
  intro left rest a hleft hrun
  simp only [restored] at hrun
  split at hrun
  · next heq =>
      cases hrun
      exact hp left _ _ hleft heq
  · cases hrun

/-- Where a reading fails, what is read in its place starts further on in the same text. -/
theorem faithful_tryCatch {handle : SyntaxError → Parse α} (hp : Faithful all p)
    (hhandle : ∀ e, Faithful all (handle e)) : Faithful all (tryCatch p handle) := by
  intro left rest a hleft hrun
  have htry : (tryCatch p handle).run left = (p.handle handle).run left := rfl
  rw [htry] at hrun
  simp only [Parse.handle] at hrun
  split at hrun
  · next heq =>
      cases hrun
      exact hp left _ _ hleft heq
  · next e between heq => exact hhandle e between rest a (suffix_of_run heq hleft) hrun

/-- A reading that is tried gives what it reads, and nothing where it fails. -/
@[simp] theorem faithful_attempt (hp : Faithful all p) : Faithful all (attempt p) := by
  exact faithful_tryCatch (faithful_some hp) fun _ => by simp

/-- A clause after a keyword is read faithfully when what stands in it is. -/
@[simp] theorem faithful_after? (word : String) (hp : Faithful all p) :
    Faithful all (after? word p) := by
  unfold after?
  refine .skip fun _ => ?_
  split
  · exact hp.bind fun a ha => by simpa using ha
  · simp

/-- A clause after a row of keywords is read faithfully when what stands in it is. -/
@[simp] theorem faithful_afterAll? (words : List String) (hp : Faithful all p) :
    Faithful all (afterAll? words p) := by
  unfold afterAll?
  refine .skip fun _ => ?_
  split
  · exact hp.bind fun a ha => by simpa using ha
  · simp

/-! ## Rows and groups -/

/-- Steps that are taken as long as they give something add to what was read before, by induction on
the number of steps that are left. -/
theorem faithful_collect {step : Parse (Option α)} (hstep : Faithful all step) (fuel : Nat) :
    ∀ {done : List α}, ReadFrom all done → Faithful all (collect step fuel done) := by
  induction fuel with
  | zero =>
      intro done hdone
      simpa [collect] using hdone
  | succ fuel ih =>
      intro done hdone
      refine hstep.bind fun a? ha? => ?_
      cases a? with
      | none => simpa using hdone
      | some a => exact ih (by simp_all)

/-- As many steps as there are give only what each of them reads. -/
@[simp] theorem faithful_many {step : Parse (Option α)} (hstep : Faithful all step) :
    Faithful all (many step) :=
  .skip fun _ => faithful_collect hstep _ (by simp)

/-- A row adds an element for each separator that is found, by induction on the elements that may
still come. -/
theorem faithful_rowFrom (more : Parse Bool) (hp : Faithful all p) (fuel : Nat) :
    ∀ {done : List α}, ReadFrom all done → Faithful all (rowFrom p more fuel done) := by
  induction fuel with
  | zero =>
      intro done hdone
      simpa [rowFrom] using hdone
  | succ fuel ih =>
      intro done hdone
      refine hp.bind fun a ha => .bind (by simp) fun b _ => ?_
      split
      · exact ih (by simp [ha, hdone])
      · simp [ha, hdone]

/-- The elements of a row are read from the text one by one. -/
@[simp] theorem faithful_rowWhile (more : Parse Bool) (hp : Faithful all p) :
    Faithful all (rowWhile p more) :=
  .skip fun _ => faithful_rowFrom more hp _ (by simp)

/-- Elements with commas between them are read like the elements. -/
@[simp] theorem faithful_commaSeparated (hp : Faithful all p) : Faithful all (commaSeparated p) :=
  faithful_rowWhile _ hp

/-- A row that may be empty is read like a row that may not. -/
@[simp] theorem faithful_commaSeparatedOrNone (closing : Symbol) (hp : Faithful all p) :
    Faithful all (commaSeparatedOrNone p closing) := by
  unfold commaSeparatedOrNone
  refine .skip fun _ => ?_
  split
  · simp
  · exact faithful_commaSeparated hp

/-- What stands in parentheses is read like what stands without them. -/
@[simp] theorem faithful_parens (hp : Faithful all p) : Faithful all (parens p) :=
  .skip fun _ => hp.bind fun _ ha => .skip fun _ => by simpa using ha

/-- Clauses with commas between them are read like the clauses. -/
@[simp] theorem faithful_listedPieces {clause : Parse (List Piece)}
    (hclause : Faithful all clause) : Faithful all (listedPieces <$> commaSeparated clause) :=
  faithful_map (faithful_commaSeparated hclause) fun _ hrows => by simpa using hrows

end

/-! ## Constants and levels -/

/-- A constant is read where it is read. -/
@[simp] theorem faithful_constant {all : List Lexeme} : Faithful all constant := by
  intro left rest l hleft hrun text htext
  simp only [HasLiterals.literals, List.mem_singleton] at htext
  exact ⟨left, rest, hleft, htext ▸ hrun⟩

/-- The readings that a level nests are faithful. -/
class Level.Faithful (all : List Lexeme) (inner : Level) : Prop where
  statement : Grammar.Faithful all inner.statement
  query : Grammar.Faithful all inner.query
  expr : ∀ strength, Grammar.Faithful all (inner.expr strength)
  linking : ∀ strength, Grammar.Faithful all (inner.linking strength)

attribute [simp] Level.Faithful.statement Level.Faithful.query Level.Faithful.expr
  Level.Faithful.linking

end TypedSql.Grammar
