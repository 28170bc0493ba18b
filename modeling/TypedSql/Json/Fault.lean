import TypedSql.Mismatch
import TypedSql.Text.Bytes

/-!
# Faults of a JSON text

Why a JSON text could not be read, and where. A place is kept as the number of bytes that were still
to be read, so that a reader needs nothing but the rest of its text.
-/

namespace TypedSql.Json

open Text (byteCount)

/-- Why a text could not be read. -/
inductive Cause
  | endInValue
  | endInObject
  | endInList
  | endInString
  | expectedValue
  | expectedWord
  | expectedColon
  | expectedItem
  | expectedEntry
  | keyNotString
  | trailingComma
  | trailingCharacters
  | invalidNumber
  | numberTooLarge
  | invalidEscape
  | loneSurrogate
  | unfinishedSurrogate
  | controlCharacter
  | tooDeep
  | mismatch (mismatch : Mismatch)
  deriving DecidableEq, Repr, Inhabited

/-- The wording of a cause. -/
def Cause.message : Cause → String
  | endInValue => "EOF while parsing a value"
  | endInObject => "EOF while parsing an object"
  | endInList => "EOF while parsing a list"
  | endInString => "EOF while parsing a string"
  | expectedValue => "expected value"
  | expectedWord => "expected ident"
  | expectedColon => "expected `:`"
  | expectedItem => "expected `,` or `]`"
  | expectedEntry => "expected `,` or `\x7d`"
  | keyNotString => "key must be a string"
  | trailingComma => "trailing comma"
  | trailingCharacters => "trailing characters"
  | invalidNumber => "invalid number"
  | numberTooLarge => "number out of range"
  | invalidEscape => "invalid escape"
  | loneSurrogate => "lone leading surrogate in hex escape"
  | unfinishedSurrogate => "unexpected end of hex escape"
  | controlCharacter => "control character (\\u0000-\\u001F) found while parsing a string"
  | tooDeep => "recursion limit exceeded"
  | mismatch m => m.message

/-- A cause with the number of bytes that were left, or with the text that was left while the place
is still to be fixed by the list or object around it. -/
inductive Fault
  | placed (cause : Cause) (left : Nat)
  | unplaced (cause : Cause) (rest : List Char)
  deriving Inhabited

namespace Fault

/-- Why the text could not be read. -/
def cause : Fault → Cause
  | placed cause _ => cause
  | unplaced cause _ => cause

/-- The number of bytes that were left. -/
def left : Fault → Nat
  | placed _ left => left
  | unplaced _ rest => byteCount rest

end Fault

/-- The line and the column of the place after a number of bytes. Columns count bytes; the place
after a line's end is column zero of the next. -/
def placeAfter (line column : Nat) : List Char → Nat → Nat × Nat
  | [], bytes => (line, column + bytes)
  | c :: rest, bytes =>
      if bytes < c.utf8Size then (line, column + bytes)
      else if c = '\n' then placeAfter (line + 1) 0 rest (bytes - c.utf8Size)
      else placeAfter line (column + c.utf8Size) rest (bytes - c.utf8Size)

/-- A cause at its line and column. -/
structure TextError where
  cause : Cause
  line : Nat
  column : Nat
  deriving DecidableEq, Repr, Inhabited

/-- The wording of an error, with its place. -/
def TextError.message (e : TextError) : String :=
  s!"{e.cause.message} at line {e.line} column {e.column}"

/-- A fault in a text, with its line and column. -/
def Fault.locate (text : List Char) (fault : Fault) : TextError :=
  let (line, column) := placeAfter 1 0 text (byteCount text - fault.left)
  ⟨fault.cause, line, column⟩

end TypedSql.Json
