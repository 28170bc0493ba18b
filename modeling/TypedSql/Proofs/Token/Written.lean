import TypedSql.Proofs.Token.Content

namespace TypedSql

/-! # Tokens written out

The text of a row of tokens, and the condition under which a token is read back from it. Writing
puts no escapes back, so a content must not need any (`Token.Intact`), and a few tokens are read
differently in front of certain texts (`Token.Apart`).
-/

namespace Token

/-- The characters of a token as it is written out. -/
def chars (t : Token) : List Char := t.text.toList

/-- A bare word is written as it is. -/
@[simp] theorem chars_bare (value : String) : (word ⟨value, none⟩).chars = value.toList := rfl

/-- A name is written between its quotes. -/
@[simp] theorem chars_delimited (value : String) (quote : Char) :
    (word ⟨value, some quote⟩).chars = quote :: (value.toList ++ [Word.closing quote]) := by
  show (quote.toString ++ value ++ (Word.closing quote).toString).toList = _
  simp

@[simp] theorem chars_number (digits : String) :
    (number digits false).chars = digits.toList := rfl

/-- A long number is written with its mark. -/
@[simp] theorem chars_long (digits : String) :
    (number digits true).chars = digits.toList ++ ['L'] := by
  show (digits ++ "L").toList = _
  simp

/-- A string is written with its mark and its quotes, and without escapes. -/
@[simp] theorem chars_string (mark : StringMark) (quote : StringQuote) (content : String) :
    (string mark quote content).chars =
      mark.text.toList ++ (quote.text.toList ++ (content.toList ++ quote.text.toList)) := by
  show (mark.text ++ quote.text ++ content ++ quote.text).toList = _
  simp

/-- A dollar string is written between its tags. -/
@[simp] theorem chars_dollarString (tag : Option String) (content : String) :
    (dollarString tag content).chars =
      '$' :: ((tag.getD "").toList ++ '$' :: (content.toList ++
        '$' :: ((tag.getD "").toList ++ ['$']))) := by
  show ("$" ++ tag.getD "" ++ "$" ++ content ++ ("$" ++ tag.getD "" ++ "$")).toList = _
  simp

/-- A comment to the end of the line is written after what opens it. -/
@[simp] theorem chars_lineComment (opening content : String) :
    (gap (.lineComment opening content)).chars = opening.toList ++ content.toList := by
  show (opening ++ content).toList = _
  simp

/-- A comment is written between its marks. -/
@[simp] theorem chars_blockComment (content : String) :
    (gap (.blockComment content)).chars = '/' :: '*' :: (content.toList ++ ['*', '/']) := by
  show ("/*" ++ content ++ "*/").toList = _
  simp

@[simp] theorem chars_symbol (s : Symbol) : (symbol s).chars = s.text.toList := rfl

@[simp] theorem chars_operator (text : String) : (operator text).chars = text.toList := rfl

@[simp] theorem chars_placeholder (text : String) : (placeholder text).chars = text.toList := rfl

@[simp] theorem chars_character (c : Char) : (character c).chars = [c] := by
  show c.toString.toList = _
  simp

end Token

/-- Tokens written out one after another. -/
def written (ts : List Token) : List Char := ts.flatMap Token.chars

@[simp] theorem written_nil : written [] = [] := rfl

/-- Tokens are written one after another. -/
@[simp] theorem written_cons (t : Token) (ts : List Token) :
    written (t :: ts) = t.chars ++ written ts := rfl

/-- Whether a backslash in a marked string escapes the next character. -/
def StringMark.escapes (d : Dialect) : StringMark → Bool
  | plain => d.hasBackslashEscapes
  | byte | raw => false
  | national | escaped | unicode | hex => true

namespace Token

/-- The content of a token can stand between its quotes as it is: it has no backslash where one
would escape, and what closes it neither occurs in it nor begins in it. -/
def Intact (d : Dialect) : Token → Prop
  | word ⟨value, some quote⟩ => Word.closing quote ∉ value.toList
  | string mark quote content =>
      (∀ c ∈ content.toList, Lexer.opensEscape (mark.escapes d) c = false) ∧
        ¬ quote.text.toList <:+: content.toList ++ quote.text.toList.tail
  | _ => True

/-- A token that is written in front of a text is not read together with it. A quote goes on with a
hexadecimal string, which may have been a number before, some operators go on with the characters
after them, and a question mark that is an operator takes any character with it. -/
def Apart (d : Dialect) : Token → List Char → Prop
  | string .hex _ _, after => after.head? ≠ some '\x27'
  | symbol .notEqual, after => ∀ c ∈ after.head?, d.isOperatorPart c = false
  | symbol .less, after => after.head? ≠ some '<'
  | symbol .question, after => after = []
  | _, _ => True

/-- Every token is intact and apart from the text of those after it. -/
def Rereadable (d : Dialect) : List Token → Prop
  | [] => True
  | t :: ts => t.Intact d ∧ t.Apart d (written ts) ∧ Rereadable d ts

instance decidableIntact (d : Dialect) : (t : Token) → Decidable (t.Intact d)
  | word ⟨value, some quote⟩ => inferInstanceAs (Decidable (Word.closing quote ∉ value.toList))
  | string mark quote content =>
      have := List.decidableBAll (fun c => Lexer.opensEscape (mark.escapes d) c = false)
        content.toList
      inferInstanceAs (Decidable ((∀ c ∈ content.toList,
        Lexer.opensEscape (mark.escapes d) c = false) ∧
          ¬ quote.text.toList <:+: content.toList ++ quote.text.toList.tail))
  | word ⟨_, none⟩ | number _ _ | dollarString _ _ | gap _ | symbol _ | operator _
  | placeholder _ | character _ => .isTrue trivial

instance decidableApart (d : Dialect) (t : Token) (after : List Char) :
    Decidable (t.Apart d after) := by
  unfold Apart
  split
  case h_2 => exact Option.decidableForallMem _
  all_goals infer_instance

instance decidableRereadable (d : Dialect) : (ts : List Token) → Decidable (Rereadable d ts)
  | [] => .isTrue trivial
  | t :: ts =>
      have := decidableRereadable d ts
      inferInstanceAs (Decidable (t.Intact d ∧ t.Apart d (written ts) ∧ Rereadable d ts))

end Token

end TypedSql
