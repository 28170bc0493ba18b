import TypedSql.Json.Number

/-!
# Reading whole JSON values

Values of any form, to a bounded depth. A value that nobody asks for is passed over instead: it is
checked for its form only, and neither its numbers nor its strings are taken apart.
-/

namespace TypedSql.Json

open Reader
open Text (byteCount)

/-- A value that is neither a list nor an object, by its first character. -/
def scalar (first : Char) : Reader Json := do
  match first with
  | 'n' => drop; word ['u', 'l', 'l']; return .null
  | 't' => drop; word ['r', 'u', 'e']; return .flag true
  | 'f' => drop; word ['a', 'l', 's', 'e']; return .flag false
  | '\x22' => return .text (← string)
  | c => if c == '-' || c.isDigit then number else failAhead .expectedValue

/-- A value of any form, with at most `depth` lists and objects inside one another. -/
def value : (depth : Nat) → Reader Json
  | 0 => do
      match ← peekValue with
      | '[' | '\x7b' => failAhead .tooDeep
      | c => scalar c
  | depth + 1 => do
      match ← peekValue with
      | '[' => inList (return .list (← items (value depth)))
      | '\x7b' =>
          inObject do
            let entry (key : String) (found : List (String × Json)) : Reader _ := do
              colon
              return (key, ← value depth) :: found
            return .object (← entries entry []).reverse
      | c => scalar c

/-- The deepest value that is read. -/
def maxDepth : Nat := 127

/-- Reads a text that holds one value. -/
def ofText (text : String) : Except TextError Json := readAll (value maxDepth) text

/-! ## Values that are passed over -/

/-- The end of a string that is passed over, whose opening quote has been seen: what follows it. -/
def skipStringRest : List Char → Except Fault (List Char)
  | [] => .error (.placed .endInString 0)
  | '\x22' :: rest => .ok rest
  | '\\' :: [] => .error (.placed .endInString 0)
  | '\\' :: 'u' :: a :: b :: c :: d :: rest =>
      if (hexValue4? a b c d).isSome then skipStringRest rest
      else .error (hexFault (a :: b :: c :: d :: rest))
  | '\\' :: 'u' :: rest => .error (hexFault rest)
  | '\\' :: c :: rest =>
      if (escaped? c).isSome then skipStringRest rest
      else .error (.placed .invalidEscape (byteCount (c :: rest) - 1))
  | c :: rest =>
      if c.toNat < 0x20 then .error (.placed .controlCharacter (byteCount (c :: rest)))
      else skipStringRest rest

/-- Passes over a string of which the opening quote has been seen. -/
def skipString : Reader Unit := do
  drop
  fun cs => (skipStringRest cs).map fun rest => ((), rest)

/-- Passes over an exponent of which the letter has been seen. -/
def skipExponent : Reader Unit := do
  drop
  let sign ← peek
  if sign == some '+' || sign == some '-' then drop
  match ← peek with
  | some c => if c.isDigit then discard countDigits else failAhead .invalidNumber
  | none => fail .invalidNumber

/-- Passes over what follows the digits before the point. -/
def skipNumberEnd : Reader Unit := do
  match ← peek with
  | some '.' =>
      drop
      if (← countDigits) = 0 then failAhead .invalidNumber
      match ← peek with
      | some 'e' | some 'E' => skipExponent
      | _ => return
  | some 'e' | some 'E' => skipExponent
  | _ => return

/-- Passes over a number of which the first character has been seen. -/
def skipNumber : Reader Unit := do
  if (← peek) == some '-' then drop
  match ← peek with
  | some '0' =>
      drop
      match ← peek with
      | some c => if c.isDigit then failAhead .invalidNumber else skipNumberEnd
      | none => skipNumberEnd
  | some c =>
      if c.isDigit then
        discard countDigits
        skipNumberEnd
      else failAhead .invalidNumber
  | none => fail .invalidNumber

/-- Passes over a value that is neither a list nor an object, by its first character. -/
def skipScalar (first : Char) : Reader Unit := do
  match first with
  | 'n' => drop; word ['u', 'l', 'l']
  | 't' => drop; word ['r', 'u', 'e']
  | 'f' => drop; word ['a', 'l', 's', 'e']
  | '\x22' => skipString
  | c => if c == '-' || c.isDigit then skipNumber else failAhead .expectedValue

/-- Passes over a key and its colon. -/
def skipKey : Reader Unit := do
  match ← peekToken with
  | some '\x22' => skipString
  | some _ => failAhead .keyNotString
  | none => failAhead .endInObject
  colon

/-- Passes over the parts of a list or an object up to its closing bracket; `fuel` bounds their
number. -/
def skipParts (close : Char) (endFault expected : Cause) (part : Reader Unit) :
    Nat → Bool → Reader Unit
  | 0, _ => fail expected
  | fuel + 1, first => do
      match ← peekToken with
      | none => failAhead endFault
      | some c =>
          if c = close then drop
          else if first then
            part
            skipParts close endFault expected part fuel false
          else if c = ',' then
            drop
            part
            skipParts close endFault expected part fuel false
          else failAhead expected

/-- Passes over a value. Each list or object takes a character at least, so that `depth` is enough
when it is the length of the text. -/
def skipWithin : (depth : Nat) → Reader Unit
  | 0 => failAhead .expectedValue
  | depth + 1 => do
      match ← peekValue with
      | '[' =>
          drop
          skipParts ']' .endInList .expectedItem (skipWithin depth) ((← get).length + 1) true
      | '\x7b' =>
          drop
          skipParts '\x7d' .endInObject .expectedEntry (do skipKey; skipWithin depth)
            ((← get).length + 1) true
      | c => skipScalar c

/-- Passes over a value of any form. -/
def skip : Reader Unit := do skipWithin ((← get).length + 1)

end TypedSql.Json
