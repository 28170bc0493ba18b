import TypedSql.Contract
import TypedSql.Keyed
import TypedSql.Token.Lexer

/-!
# Placeholders

A SQL body names its parameters by placeholders such as `:id`. They are found among the tokens of
the body, or in its plain text where it has no tokens. What a body takes, and how it is handed to a
driver that knows positions only, are read off the placeholders.
-/

namespace TypedSql.Placeholder

open Text

/-! ## Placeholders among tokens -/

/-- The name that a token gives to a placeholder: with the colon before it a word or a number that
is not marked long, or a placeholder token that has the colon itself. The tokens after it come with
it. -/
def candidate? (token : Token) (rest : List Token) : Option (String × List Token) :=
  match token, rest with
  | .symbol .colon, .word w :: after => some (w.value, after)
  | .symbol .colon, .number digits false :: after => some (digits, after)
  | .placeholder text, rest =>
      match text.toList with
      | ':' :: name => some (String.ofList name, rest)
      | _ => none
  | _, _ => none

/-- The placeholder that starts with a token, with the tokens after it. It has a name that is not
empty. -/
def placeholderAt? (token : Token) (rest : List Token) : Option (String × List Token) :=
  (candidate? token rest).filter fun (name, _) => !name.isEmpty

theorem length_le_of_candidate? {token : Token} {rest left : List Token} {name : String}
    (h : candidate? token rest = some (name, left)) : left.length ≤ rest.length := by
  unfold candidate? at h
  split at h
  · cases h
    exact Nat.le_add_right _ 1
  · cases h
    exact Nat.le_add_right _ 1
  · split at h
    · cases h
      exact Nat.le_refl _
    · simp at h
  · simp at h

theorem length_le_of_placeholderAt? {token : Token} {rest left : List Token} {name : String}
    (h : placeholderAt? token rest = some (name, left)) : left.length ≤ rest.length :=
  length_le_of_candidate? (Option.filter_eq_some_iff.1 h).1

/-- The names of the placeholders among tokens, repeats included. -/
def namesIn : List Token → List String
  | [] => []
  | token :: rest =>
      match h : placeholderAt? token rest with
      | some (name, left) =>
          have : left.length ≤ rest.length := length_le_of_placeholderAt? h
          name :: namesIn left
      | none => namesIn rest
termination_by tokens => tokens.length

/-! ## Placeholders in plain text -/

/-- A piece of a plain text. -/
inductive Fragment
  | text (s : String)
  | placeholder (name : String)
  deriving DecidableEq, Repr, Inhabited

/-- The word at the front of a text that follows a colon, with the text after it. -/
def wordAfter? (s : List Char) : Option (List Char × List Char) :=
  match s with
  | ':' :: rest =>
      if (rest.takeWhile isWordChar).isEmpty then none
      else some (rest.takeWhile isWordChar, rest.dropWhile isWordChar)
  | _ => none

/-- The fragments of a text that has no tokens. A colon that starts the text or follows some other
character than a colon takes the word after it; a character is looked at as the one before a colon
only when no placeholder has taken it. -/
def scanText : Nat → List Char → List Fragment
  | 0, _ => []
  | _, [] => []
  | fuel + 1, c :: rest =>
      match (if c = ':' then none else wordAfter? rest) with
      | some (name, left) =>
          .text c.toString :: .placeholder (String.ofList name) :: scanText fuel left
      | none => .text c.toString :: scanText fuel rest

/-- The fragments of a text as a whole that has no tokens. -/
def ofText (s : List Char) : List Fragment :=
  match wordAfter? s with
  | some (name, left) => .placeholder (String.ofList name) :: scanText left.length left
  | none => scanText s.length s

/-- The name of a fragment that is a placeholder. -/
def Fragment.name? : Fragment → Option String
  | placeholder name => some name
  | text _ => none

/-- The names of the placeholders of a body in order, repeats included. -/
def occurrences (d : Dialect) (body : String) : List String :=
  match Lexer.tokens d body with
  | .ok tokens => namesIn tokens
  | .error _ => (ofText body.toList).filterMap Fragment.name?

/-! ## Distinct names -/

/-- Adds a name at the end, unless it is there already. -/
def addName (names : List String) (name : String) : List String :=
  if names.contains name then names else names ++ [name]

/-- Names without their later repeats. -/
def distinct (names : List String) : List String :=
  names.foldl addName []

/-! ## Declared types -/

/-- Takes the array mark off the end of a declared type, with the blanks before it. -/
def elementType? (declared : List Char) : Option (List Char) :=
  match declared.reverse with
  | ']' :: '[' :: element => some (trimRight element.reverse)
  | _ => none

/-- The parameter that a declaration gives. -/
def declaredInput (name declared : String) (nullable : Bool) : InputParameter :=
  let declared := trim declared.toList
  match elementType? declared with
  | some element => ⟨name, String.ofList element, true, nullable⟩
  | none => ⟨name, String.ofList declared, false, nullable⟩

/-- The parameter of a placeholder. A declaration under the name itself comes before one under the
name and a question mark, which makes the parameter nullable. -/
def describe (metadata : Keyed String) (name : String) : InputParameter :=
  match metadata.get? name with
  | some declared => declaredInput name declared false
  | none =>
      match metadata.get? (name ++ "?") with
      | some declared => declaredInput name declared true
      | none => .untyped name

/-- The parameters of a body, one for every distinct placeholder in order of first occurrence. -/
def inputs (d : Dialect) (body : String) (metadata : Keyed String) : List InputParameter :=
  (distinct (occurrences d body)).map (describe metadata)

/-! ## Positions -/

/-- How a driver refers to parameters. -/
inductive Style
  | numbered
  | questionMark
  deriving DecidableEq, Repr, Inhabited

/-- SQL with positions for parameters, and the name that each position is bound to. -/
structure Positional where
  sql : String
  parameters : List String
  deriving DecidableEq, Repr, Inhabited

/-- The names bound after one more occurrence, and the marker of the occurrence. A numbered marker
is used again for a name that has one. -/
def mark (style : Style) (bound : List String) (name : String) : List String × String :=
  match style with
  | .numbered => (addName bound name, s!"${(addName bound name).idxOf name + 1}")
  | .questionMark => (bound ++ [name], "?")

/-- Writes tokens out with markers for placeholders, after the names bound before. -/
def rewriteTokens (style : Style) (bound : List String) : List Token → Positional
  | [] => ⟨"", bound⟩
  | token :: rest =>
      match h : placeholderAt? token rest with
      | some (name, left) =>
          have : left.length ≤ rest.length := length_le_of_placeholderAt? h
          let (bound, marker) := mark style bound name
          let written := rewriteTokens style bound left
          ⟨marker ++ written.sql, written.parameters⟩
      | none =>
          let written := rewriteTokens style bound rest
          ⟨token.text ++ written.sql, written.parameters⟩
termination_by tokens => tokens.length

/-- Writes the fragments of a plain text out with markers for placeholders. -/
def rewriteFragments (style : Style) (bound : List String) : List Fragment → Positional
  | [] => ⟨"", bound⟩
  | .text s :: rest =>
      let written := rewriteFragments style bound rest
      ⟨s ++ written.sql, written.parameters⟩
  | .placeholder name :: rest =>
      let (bound, marker) := mark style bound name
      let written := rewriteFragments style bound rest
      ⟨marker ++ written.sql, written.parameters⟩

/-- A body with markers in the place of its placeholders. -/
def withMarkers (d : Dialect) (body : String) (style : Style) : Positional :=
  match Lexer.tokens d body with
  | .ok tokens => rewriteTokens style [] tokens
  | .error _ => rewriteFragments style [] (ofText body.toList)

end TypedSql.Placeholder
