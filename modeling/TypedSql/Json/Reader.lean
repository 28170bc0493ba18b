import TypedSql.Json
import TypedSql.Json.Fault

/-!
# Reading the parts of a JSON text

A reader takes a text and returns a value with the rest of the text. Here are the readers of blanks,
words, strings, lists and objects; numbers and whole values have modules of their own.
-/

namespace TypedSql.Json

open Text (byteCount)

/-- Takes a value off the front of a text. -/
abbrev Reader := StateT (List Char) (Except Fault)

namespace Reader

/-- Fails at the place that has been reached. -/
def fail {α : Type} (cause : Cause) : Reader α :=
  fun cs => .error (.placed cause (byteCount cs))

/-- Fails at the byte that comes next; at the end of the text, there. -/
def failAhead {α : Type} (cause : Cause) : Reader α :=
  fun cs => .error (.placed cause (byteCount cs - 1))

/-- Fails at the end of the list or object that is being read, if it ends here. -/
def failUnplaced {α : Type} (cause : Cause) : Reader α :=
  fun cs => .error (.unplaced cause cs)

/-- The next character, which stays. -/
def peek : Reader (Option Char) := do return (← get).head?

/-- Drops the next character. -/
def drop : Reader Unit := modify (List.drop 1)

end Reader

open Reader

/-- The characters between tokens. -/
def isBlank (c : Char) : Bool := c == ' ' || c == '\n' || c == '\t' || c == '\r'

/-- Passes over blanks. -/
def skipBlanks : Reader Unit := modify (List.dropWhile isBlank)

/-- The first character after blanks, which stays. -/
def peekToken : Reader (Option Char) := do
  skipBlanks
  peek

/-- The first character of a value, which stays. -/
def peekValue : Reader Char := do
  match ← peekToken with
  | some c => return c
  | none => failAhead .endInValue

/-- Takes a word of which the first character has been seen. -/
def word : List Char → Reader Unit
  | [] => pure ()
  | expected :: more => do
      match ← peek with
      | none => fail .endInValue
      | some c =>
          if c = expected then
            drop
            word more
          else failAhead .expectedWord

/-! ## Strings -/

/-- The value of a hexadecimal digit. -/
def hexValue? (c : Char) : Option Nat :=
  if '0' ≤ c ∧ c ≤ '9' then some (c.toNat - '0'.toNat)
  else if 'a' ≤ c ∧ c ≤ 'f' then some (c.toNat - 'a'.toNat + 10)
  else if 'A' ≤ c ∧ c ≤ 'F' then some (c.toNat - 'A'.toNat + 10)
  else none

/-- The value of four hexadecimal digits. -/
def hexValue4? (a b c d : Char) : Option Nat := do
  return ((← hexValue? a) * 16 + (← hexValue? b)) * 256 + (← hexValue? c) * 16 + (← hexValue? d)

/-- The fault of an escape whose next four bytes are no hexadecimal digits. -/
def hexFault (rest : List Char) : Fault :=
  if 4 ≤ byteCount rest then .placed .invalidEscape (byteCount rest - 4)
  else .placed .endInString 0

/-- The character that a letter after a backslash stands for. -/
def escaped? (c : Char) : Option Char :=
  match c with
  | '\x22' => some '\x22'
  | '\\' => some '\\'
  | '/' => some '/'
  | 'b' => some '\x08'
  | 'f' => some '\x0c'
  | 'n' => some '\n'
  | 'r' => some '\r'
  | 't' => some '\t'
  | _ => none

/-- Adds a character in front of what the rest of a string reads as. -/
def consChar (c : Char) (more : Except Fault (List Char × List Char)) :
    Except Fault (List Char × List Char) :=
  more.map fun (read, rest) => (c :: read, rest)

/-- A code unit of the first half of a pair. -/
def isLeading (n : Nat) : Bool := 0xD800 ≤ n && n ≤ 0xDBFF

/-- A code unit of the second half of a pair. -/
def isTrailing (n : Nat) : Bool := 0xDC00 ≤ n && n ≤ 0xDFFF

/-- The rest of a string after its opening quote: its characters, and what follows the closing
quote. A character beyond the first plane may be escaped as a pair of code units. -/
def stringRest : List Char → Except Fault (List Char × List Char)
  | [] => .error (.placed .endInString 0)
  | '\x22' :: rest => .ok ([], rest)
  | '\\' :: [] => .error (.placed .endInString 0)
  | '\\' :: 'u' :: a :: b :: c :: d :: rest =>
      match hexValue4? a b c d with
      | none => .error (hexFault (a :: b :: c :: d :: rest))
      | some n =>
          if isTrailing n then .error (.placed .loneSurrogate (byteCount rest))
          else if isLeading n then
            match rest with
            | '\\' :: 'u' :: e :: f :: g :: h :: more =>
                match hexValue4? e f g h with
                | none => .error (hexFault (e :: f :: g :: h :: more))
                | some m =>
                    if isTrailing m then
                      consChar (Char.ofNat ((n - 0xD800) * 0x400 + (m - 0xDC00) + 0x10000))
                        (stringRest more)
                    else .error (.placed .loneSurrogate (byteCount more))
            | [] | '\\' :: [] => .error (.placed .endInString 0)
            | '\\' :: 'u' :: more => .error (hexFault more)
            | '\\' :: more => .error (.placed .unfinishedSurrogate (byteCount more - 1))
            | more => .error (.placed .unfinishedSurrogate (byteCount more - 1))
          else consChar (Char.ofNat n) (stringRest rest)
  | '\\' :: 'u' :: rest => .error (hexFault rest)
  | '\\' :: c :: rest =>
      match escaped? c with
      | some e => consChar e (stringRest rest)
      | none => .error (.placed .invalidEscape (byteCount (c :: rest) - 1))
  | c :: rest =>
      if c.toNat < 0x20 then .error (.placed .controlCharacter (byteCount rest))
      else consChar c (stringRest rest)

/-- A string of which the opening quote has been seen. -/
def string : Reader String := do
  drop
  fun cs => (stringRest cs).map fun (read, rest) => (String.ofList read, rest)

/-! ## Lists and objects -/

/-- Whether another item follows in a list, past the comma before it. -/
def hasItem (first : Bool) : Reader Bool := do
  match ← peekToken with
  | none => failAhead .endInList
  | some ']' => return false
  | some c =>
      if first then return true
      else if c = ',' then
        drop
        match ← peekToken with
        | some ']' => failAhead .trailingComma
        | some _ => return true
        | none => failAhead .endInValue
      else failAhead .expectedItem

/-- Whether another entry follows in an object, past the comma before it. -/
def hasEntry (first : Bool) : Reader Bool := do
  match ← peekToken with
  | none => failAhead .endInObject
  | some '\x7d' => return false
  | some c =>
      if first then
        if c = '\x22' then return true else failAhead .keyNotString
      else if c = ',' then
        drop
        match ← peekToken with
        | some '\x22' => return true
        | some '\x7d' => failAhead .trailingComma
        | some _ => failAhead .keyNotString
        | none => failAhead .endInValue
      else failAhead .expectedEntry

/-- The colon after a key. -/
def colon : Reader Unit := do
  match ← peekToken with
  | some ':' => drop
  | some _ => failAhead .expectedColon
  | none => failAhead .endInObject

/-- The items of a list up to its end; `fuel` bounds their number. -/
def itemsLoop {α : Type} (item : Reader α) : Nat → Bool → Reader (List α)
  | 0, _ => fail .expectedItem
  | fuel + 1, first => do
      if ← hasItem first then
        let x ← item
        let xs ← itemsLoop item fuel false
        return x :: xs
      else return []

/-- The items of a list up to its end. Each takes a character at least. -/
def items {α : Type} (item : Reader α) : Reader (List α) := do
  itemsLoop item ((← get).length + 1) true

/-- The entries of an object up to its end, each taken up by `entry` after its key; `fuel` bounds
their number. -/
def entriesLoop {σ : Type} (entry : String → σ → Reader σ) : Nat → Bool → σ → Reader σ
  | 0, _, _ => fail .expectedEntry
  | fuel + 1, first, s => do
      if ← hasEntry first then
        let key ← string
        let s ← entry key s
        entriesLoop entry fuel false s
      else return s

/-- The entries of an object up to its end. Each takes a character at least. -/
def entries {σ : Type} (entry : String → σ → Reader σ) (start : σ) : Reader σ := do
  entriesLoop entry ((← get).length + 1) true start

/-- The place of a fault that was left open inside a list: after the list, if it ends there. -/
def listFault : Fault → Fault
  | .placed cause left => .placed cause left
  | .unplaced cause rest =>
      match rest.dropWhile isBlank with
      | ']' :: rest => .placed cause (byteCount rest)
      | ',' :: rest => .placed cause (byteCount (rest.dropWhile isBlank))
      | rest => .placed cause (byteCount rest)

/-- The place of a fault that was left open inside an object: after the object, if it ends there. -/
def objectFault : Fault → Fault
  | .placed cause left => .placed cause left
  | .unplaced cause rest =>
      match rest.dropWhile isBlank with
      | '\x7d' :: rest => .placed cause (byteCount rest)
      | rest => .placed cause (byteCount rest)

/-- The end of a list. -/
def listEnd : Reader Unit := do
  match ← peekToken with
  | some ']' => drop
  | some ',' =>
      drop
      match ← peekToken with
      | some ']' => failAhead .trailingComma
      | _ => failAhead .trailingCharacters
  | some _ => failAhead .trailingCharacters
  | none => failAhead .endInList

/-- The end of an object. -/
def objectEnd : Reader Unit := do
  match ← peekToken with
  | some '\x7d' => drop
  | some ',' => failAhead .trailingComma
  | some _ => failAhead .trailingCharacters
  | none => failAhead .endInObject

/-- A list of which the bracket has been seen. -/
def inList {α : Type} (body : Reader α) : Reader α := do
  drop
  let x ← fun cs => (body cs).mapError listFault
  listEnd
  return x

/-- An object of which the brace has been seen. -/
def inObject {α : Type} (body : Reader α) : Reader α := do
  drop
  let x ← fun cs => (body cs).mapError objectFault
  objectEnd
  return x

/-! ## Whole texts -/

/-- Reads a text that holds one value and nothing else. -/
def readAll {α : Type} (value : Reader α) (text : String) : Except TextError α :=
  let whole : Reader α := do
    let x ← value
    match ← peekToken with
    | none => return x
    | some _ => failAhead .trailingCharacters
  match whole.run text.toList with
  | .ok (x, _) => .ok x
  | .error fault => .error (fault.locate text.toList)

end TypedSql.Json
