/-!
# JSON values and their text

Values as they are kept and exchanged, and the two layouts in which they are written: on one line
without blanks, or with every item and entry on an indented line of its own.
-/

namespace TypedSql

/-- A JSON value. The entries of an object keep their order. A decimal is never written; it holds
the text in which messages show it. -/
inductive Json
  | null
  | flag (value : Bool)
  | integer (value : Int)
  | decimal (shown : String)
  | text (value : String)
  | list (items : List Json)
  | object (entries : List (String × Json))
  deriving Inhabited

namespace Json

/-- A natural number. -/
def natural (n : Nat) : Json := .integer n

/-- How the parts of lists and objects are set. -/
inductive Layout
  | compact
  | indented
  deriving DecidableEq, Repr

namespace Layout

/-- What stands before an item at some depth. -/
def lineBreak : Layout → Nat → List Char
  | compact, _ => []
  | indented, depth => '\n' :: List.replicate (2 * depth) ' '

/-- What stands between a key and its value. -/
def colon : Layout → List Char
  | compact => [':']
  | indented => [':', ' ']

end Layout

/-- A hexadecimal digit in lower case. -/
def hexDigit (n : Nat) : Char := "0123456789abcdef".toList.getD n '0'

/-- A character inside a string: quotes, backslashes and control characters are escaped. -/
def escapeChar (c : Char) : List Char :=
  match c with
  | '\x22' => ['\\', '\x22']
  | '\\' => ['\\', '\\']
  | '\x08' => ['\\', 'b']
  | '\x0c' => ['\\', 'f']
  | '\n' => ['\\', 'n']
  | '\r' => ['\\', 'r']
  | '\t' => ['\\', 't']
  | c =>
      if c.toNat < 0x20 then ['\\', 'u', '0', '0', hexDigit (c.toNat / 16), hexDigit (c.toNat % 16)]
      else [c]

/-- A string between quotes. -/
def writeText (s : String) : List Char :=
  '\x22' :: s.toList.flatMap escapeChar ++ ['\x22']

/-- An integer in decimal digits. -/
def writeInteger (n : Int) : List Char := (toString n).toList

mutual

/-- A value in a layout, its own opening at some depth. -/
def write (layout : Layout) (depth : Nat) : Json → List Char
  | .null => ['n', 'u', 'l', 'l']
  | .flag true => ['t', 'r', 'u', 'e']
  | .flag false => ['f', 'a', 'l', 's', 'e']
  | .integer n => writeInteger n
  | .decimal shown => shown.toList
  | .text s => writeText s
  | .list [] => ['[', ']']
  | .list (item :: items) =>
      '[' :: layout.lineBreak (depth + 1) ++ write layout (depth + 1) item ++
        writeItems layout (depth + 1) items ++ layout.lineBreak depth ++ [']']
  | .object [] => ['\x7b', '\x7d']
  | .object ((key, value) :: entries) =>
      '\x7b' :: layout.lineBreak (depth + 1) ++ writeText key ++ layout.colon ++
        write layout (depth + 1) value ++ writeEntries layout (depth + 1) entries ++
        layout.lineBreak depth ++ ['\x7d']

/-- The items after the first. -/
def writeItems (layout : Layout) (depth : Nat) : List Json → List Char
  | [] => []
  | item :: items =>
      ',' :: layout.lineBreak depth ++ write layout depth item ++ writeItems layout depth items

/-- The entries after the first. -/
def writeEntries (layout : Layout) (depth : Nat) : List (String × Json) → List Char
  | [] => []
  | (key, value) :: entries =>
      ',' :: layout.lineBreak depth ++ writeText key ++ layout.colon ++
        write layout depth value ++ writeEntries layout depth entries

end

/-- The value on one line, without blanks. -/
def compact (value : Json) : String := String.ofList (write .compact 0 value)

/-- The value over several lines, indented by two blanks per level. -/
def pretty (value : Json) : String := String.ofList (write .indented 0 value)

end Json

end TypedSql
