import TypedSql.Toml.Fault

/-!
# Reading the parts of a TOML text

A reader takes a text and returns a value with the rest of the text. When a reader fails, another
reading of the same text may be tried, unless the fault is final. Here are the ways to combine
readers and the readers of blanks, comments and line ends.
-/

namespace TypedSql.Toml

/-- Takes a value off the front of a text. -/
abbrev Reader := StateT (List Char) (Except Fault)

namespace Reader

variable {α β : Type}

/-- Fails at the place that has been reached. -/
def fail : Reader α := fun cs => .error (.bare cs)

/-- The reader whose faults are all final. -/
def commit (r : Reader α) : Reader α :=
  fun cs => (r cs).mapError fun f => { f with final := true }

/-- Names the part that a reader reads, unless a part within it is named already. -/
def labelled (label : String) (r : Reader α) : Reader α :=
  fun cs => (r cs).mapError fun f => { f with label := f.label.or (some label) }

/-- Says what a reader reads. -/
def expecting (expected : List String) (r : Reader α) : Reader α :=
  fun cs => (r cs).mapError fun f => { f with expected := f.expected ++ expected }

/-- Tries a second reader where the first one fails without a final fault. -/
def orTry (first second : Reader α) : Reader α := fun cs =>
  match first cs with
  | .error f => if f.final then .error f else second cs
  | result => result

/-- The value of a reader, or nothing where it fails without a final fault. -/
def optional (r : Reader α) : Reader (Option α) := orTry (some <$> r) (pure none)

/-- Reads and goes back. -/
def ahead (r : Reader α) : Reader α := do
  let before ← get
  let x ← r
  set before
  return x

/-- Replaces what was read by a result; a clash lies at the place where reading began. -/
def checked (r : Reader α) (f : α → Except Clash β) : Reader β := fun cs =>
  match r cs with
  | .error fault => .error fault
  | .ok (x, rest) =>
      match f x with
      | .ok y => .ok (y, rest)
      | .error clash => .error (.ofClash cs clash)

/-- A value with the stretch that it was read from. -/
def spanned (r : Reader α) : Reader (α × Span) := do
  let start ← get
  let x ← r
  return (x, ⟨start, ← get⟩)

/-- The next character, which stays. -/
def peek : Reader (Option Char) := do return (← get).head?

/-- A character of a class. -/
def charOf (p : Char → Bool) : Reader Char := fun
  | c :: rest => if p c then .ok (c, rest) else .error (.bare (c :: rest))
  | [] => .error (.bare [])

/-- A given character. -/
def char (c : Char) : Reader Char := charOf (· == c)

/-- A given text; where it does not stand as a whole, nothing of it is taken. -/
def literal (text : List Char) : Reader Unit := fun cs =>
  match text.isPrefixOf? cs with
  | some rest => .ok ((), rest)
  | none => .error (.bare cs)

/-- All characters of a class at the front. -/
def zeroOrMore (p : Char → Bool) : Reader (List Char) := fun cs =>
  .ok (cs.takeWhile p, cs.dropWhile p)

/-- All characters of a class at the front, one at least. -/
def oneOrMore (p : Char → Bool) : Reader (List Char) := fun cs =>
  match cs.takeWhile p with
  | [] => .error (.bare cs)
  | taken => .ok (taken, cs.dropWhile p)

/-- The end of the text. -/
def atEnd : Reader Unit := fun
  | [] => .ok ((), [])
  | cs => .error (.bare cs)

/-- Reads as often as possible; `fuel` bounds how often. -/
def repeatLoop (r : Reader α) : Nat → Reader (List α)
  | 0 => pure []
  | fuel + 1 => do
      match ← optional r with
      | none => return []
      | some x => return x :: (← repeatLoop r fuel)

/-- Reads as often as possible. Each reading takes a character at least. -/
def repeated (r : Reader α) : Reader (List α) := do repeatLoop r (← get).length

/-- Reads items with separators between them; a separator without an item after it stays. The first
item is optional; each item with its separator takes a character at least. -/
def separated (item : Reader α) (separator : Reader β) : Reader (List α) := do
  match ← optional item with
  | none => return []
  | some x => return x :: (← repeated (do let _ ← separator; item))

end Reader

open Reader

/-- The characters between the tokens of a line. -/
def isBlank (c : Char) : Bool := c == ' ' || c == '\t'

/-- A character of a comment: everything but control characters, tabs excepted. -/
def isCommentChar (c : Char) : Bool := c == '\t' || (0x20 ≤ c.toNat && c.toNat ≠ 0x7F)

/-- Blanks, if any. -/
def blanks : Reader (List Char) := zeroOrMore isBlank

/-- The end of a line. -/
def newline : Reader Unit :=
  orTry (discard (char '\n')) (do let _ ← char '\r'; discard (char '\n'))

/-- The end of a line or of the text. -/
def lineEnd : Reader Unit := orTry newline atEnd

/-- A comment, without the end of its line. -/
def comment : Reader Unit := do
  let _ ← char '#'
  discard (zeroOrMore isCommentChar)

/-- What may follow on a line, with its end. -/
def lineRest : Reader Unit := do
  let _ ← blanks
  let _ ← optional comment
  lineEnd

/-- Blanks, comments and line ends, if any; `fuel` bounds the number of lines. -/
def gapLoop : Nat → Reader Unit
  | 0 => pure ()
  | fuel + 1 => do
      let _ ← blanks
      match ← peek with
      | some '#' =>
          comment
          newline
          gapLoop fuel
      | some '\n' | some '\r' =>
          newline
          gapLoop fuel
      | _ => return

/-- Blanks, comments and line ends, if any. Each line takes a character at least. -/
def gap : Reader Unit := do gapLoop ((← get).length + 1)

end TypedSql.Toml
