import TypedSql.Proofs.Grammar.Reading
import TypedSql.Proofs.Placeholder.Names

namespace TypedSql

/-! # Placeholders that the grammar reads

The grammar reads a placeholder where it has a constant. The scan for names knows no grammar: it
takes every place in a body at which a placeholder could be read, as long as no gap parts its
tokens.
-/

/-- Tokens are a placeholder with a text: a token that is one by itself, or a symbol that marks the
name or the number after it. -/
inductive IsPlaceholder : String → List Token → Prop
  | token (text : String) : IsPlaceholder text [.placeholder text]
  | word {s : Symbol} (hs : s = .colon ∨ s = .atSign) (w : Word) :
      IsPlaceholder (s.text ++ w.value) [.symbol s, .word w]
  | number {s : Symbol} (hs : s = .colon ∨ s = .atSign) (digits : String) :
      IsPlaceholder (s.text ++ digits) [.symbol s, .number digits false]

namespace IsPlaceholder

variable {text : String} {tokens : List Token}

theorem ne_nil (h : IsPlaceholder text tokens) : tokens ≠ [] := by
  cases h <;> simp

end IsPlaceholder

namespace Grammar

section

variable {taken left rest : List Lexeme} {text : String}

end

end Grammar

namespace Placeholder

section

variable {d : Dialect} {body : String} {lexemes : List Lexeme} {token : Token}
  {rest left : List Token} {name : String}

theorem exists_of_candidate? (h : candidate? token rest = some (name, left)) :
    ∃ tokens, token :: rest = tokens ++ left ∧ IsPlaceholder (":" ++ name) tokens := by
  unfold candidate? at h
  split at h
  · next w _ =>
      cases h
      exact ⟨[.symbol .colon, .word w], rfl, .word (.inl rfl) w⟩
  · next digits _ =>
      cases h
      exact ⟨[.symbol .colon, .number _ false], rfl, .number (.inl rfl) _⟩
  · next text =>
      split at h
      · next chars heq =>
          cases h
          refine ⟨[.placeholder text], rfl, ?_⟩
          have htext : text = ":" ++ String.ofList chars := by
            apply String.toList_injective
            simp [heq]
          rw [← htext]
          exact .token text
      · simp at h
  · simp at h

/-- Of the two marks only the colon starts a text that a colon starts. -/
theorem eq_colon_of_text {s : Symbol} {named : String} (hs : s = .colon ∨ s = .atSign)
    (h : ":" ++ name = s.text ++ named) : s = .colon ∧ named = name := by
  rcases hs with rfl | rfl
  · exact ⟨rfl, (String.append_right_inj _).1 h.symm⟩
  · have hhead := congrArg (fun t => t.toList.head?) h
    simp [Symbol.text] at hhead

theorem candidate?_of_isPlaceholder {tokens : List Token} (heq : token :: rest = tokens ++ left)
    (h : IsPlaceholder (":" ++ name) tokens) : candidate? token rest = some (name, left) := by
  generalize htext : ":" ++ name = text at h
  cases h with
  | token text =>
      cases heq
      simp [candidate?, ← htext]
  | word hs w =>
      obtain ⟨rfl, rfl⟩ := eq_colon_of_text hs htext
      cases heq
      rfl
  | number hs digits =>
      obtain ⟨rfl, rfl⟩ := eq_colon_of_text hs htext
      cases heq
      rfl

/-- The scan takes the tokens of the placeholders that a colon marks. -/
theorem candidate?_eq_some :
    candidate? token rest = some (name, left) ↔
      ∃ tokens, token :: rest = tokens ++ left ∧ IsPlaceholder (":" ++ name) tokens :=
  ⟨exists_of_candidate?, fun ⟨_, heq, h⟩ => candidate?_of_isPlaceholder heq h⟩

end

end Placeholder

end TypedSql
