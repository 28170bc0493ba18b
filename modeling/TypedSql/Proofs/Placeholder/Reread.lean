import TypedSql.Proofs.Placeholder.Pieces
import TypedSql.Proofs.Token.Reading

namespace TypedSql.Placeholder

/-! # Bodies without placeholders

Where there is nothing to put markers for, a body is written out from its tokens as it is. That does
not make it the same body: what comes out has the tokens of the body only where each of them can be
read again.
-/

/-- Without placeholders, all tokens are written out. -/
theorem sql_rewriteTokens (style : Style) {bound : List String} {tokens : List Token}
    (h : namesIn tokens = []) :
    (rewriteTokens style bound tokens).sql.toList = written tokens := by
  induction tokens with
  | nil => simp [rewriteTokens]
  | cons token rest ih =>
      cases hat : placeholderAt? token rest with
      | some found =>
          rcases found with ⟨name, left⟩
          rw [namesIn_eq, fragmentsOf_placeholder hat] at h
          simp [Fragment.name?] at h
      | none =>
          have hrest : namesIn rest = [] := by
            rw [namesIn_eq, fragmentsOf_text hat] at h
            rw [namesIn_eq]
            exact h
          have hread := ih hrest
          rw [rewriteTokens_eq] at hread ⊢
          rw [fragmentsOf_text hat, rewriteFragments, written_cons, ← hread]
          simp [Token.chars]

/-- A body without placeholders keeps its tokens, in either style, exactly when they can be read
again from what they are written as. -/
theorem tokens_withMarkers_iff {d : Dialect} {body : String} {tokens : List Token} (style : Style)
    (h : Lexer.tokens d body = .ok tokens) (hnone : occurrences d body = []) :
    Lexer.tokens d (withMarkers d body style).sql = .ok tokens ↔ Token.Rereadable d tokens := by
  have hnames : namesIn tokens = [] := by
    rw [occurrences, h] at hnone
    exact hnone
  -- All that is written are the tokens, and these were read from some text.
  have hsql : (withMarkers d body style).sql.toList = written tokens := by
    rw [withMarkers, h]
    exact sql_rewriteTokens style hnames
  rw [Lexer.tokens_eq_ok, hsql]
  exact Lexer.reads_written_iff (Lexer.tokens_eq_ok.1 h)

/-- A string without quotes inside is kept. -/
theorem tokens_withMarkers_string :
    Lexer.tokens .postgres "select 'it'" =
        .ok [.word ⟨"select", none⟩, .gap .space, .string .plain .single "it"] ∧
      occurrences .postgres "select 'it'" = [] ∧
      Lexer.tokens .postgres (withMarkers .postgres "select 'it'" .numbered).sql =
        .ok [.word ⟨"select", none⟩, .gap .space, .string .plain .single "it"] := by
  have htokens : Lexer.tokens .postgres "select 'it'" =
      .ok [.word ⟨"select", none⟩, .gap .space, .string .plain .single "it"] :=
    Outcome.eq_ok_of_toOption (by decide +kernel)
  have hnone : occurrences .postgres "select 'it'" = [] := by decide +kernel
  refine ⟨htokens, hnone, (tokens_withMarkers_iff .numbered htokens hnone).2 ?_⟩
  decide +kernel

/-- The quote inside a string is written once, and the string ends there. -/
theorem tokens_withMarkers_quote :
    Lexer.tokens .postgres "select 'it''s'" =
        .ok [.word ⟨"select", none⟩, .gap .space, .string .plain .single "it's"] ∧
      occurrences .postgres "select 'it''s'" = [] ∧
      (withMarkers .postgres "select 'it''s'" .numbered).sql = "select 'it's'" ∧
      Lexer.tokens .postgres (withMarkers .postgres "select 'it''s'" .numbered).sql ≠
        .ok [.word ⟨"select", none⟩, .gap .space, .string .plain .single "it's"] := by
  have hnone : (Lexer.tokens .postgres
      (withMarkers .postgres "select 'it''s'" .numbered).sql).toOption = none := by
    decide +kernel
  refine ⟨Outcome.eq_ok_of_toOption (by decide +kernel), by decide +kernel, by decide +kernel, ?_⟩
  intro h
  rw [h] at hnone
  simp [Except.toOption] at hnone

end TypedSql.Placeholder
