import TypedSql.Toml.Quoted

/-!
# Writing TOML

The written form of a text is the plainest one that holds it: between double quotes if nothing needs
an escape, else between single quotes, else over several lines, and with escapes only where nothing
else is left.
-/

namespace TypedSql.Toml

/-- The longest row of a character in a text; `row` counts the row that ends where the text
starts. -/
def longestRow (c : Char) (row : Nat) : List Char → Nat
  | [] => row
  | d :: rest => if d = c then longestRow c (row + 1) rest else max row (longestRow c 0 rest)

/-- A control character that no written form can hold without an escape. -/
def needsEscape (c : Char) : Bool :=
  (c.toNat < 0x20 && c != '\t' && c != '\n') || c.toNat == 0x7F

/-- The forms of a written text. -/
inductive Form
  | basic
  | literal
  | basicLines
  | literalLines
  deriving DecidableEq, Repr, Inhabited

/-- The plainest form that holds a text. -/
def Form.ofText (cs : List Char) : Form :=
  let control := cs.any needsEscape
  let backslash := cs.contains '\\'
  let lines := cs.contains '\n'
  let doubles := longestRow '\x22' 0 cs
  let singles := longestRow '\x27' 0 cs
  if !control && !backslash && doubles == 0 && !lines then .basic
  else if !control && singles == 0 && !lines then .literal
  else if !control && !backslash && doubles ≤ 2 then .basicLines
  else if !control && singles ≤ 2 then .literalLines
  else if lines then .basicLines
  else .basic

/-- A capital hexadecimal digit. -/
def hexDigit (n : Nat) : Char := "0123456789ABCDEF".toList.getD n '0'

/-- A character with an escape where it needs one. Over several lines a line end needs none, and a
quote needs one only after `quotes` others if these are two. -/
def writeChar (severalLines : Bool) (quotes : Nat) (c : Char) : List Char :=
  match c with
  | '\x08' => ['\\', 'b']
  | '\t' => ['\\', 't']
  | '\n' => if severalLines then ['\n'] else ['\\', 'n']
  | '\x0c' => ['\\', 'f']
  | '\r' => ['\\', 'r']
  | '\\' => ['\\', '\\']
  | '\x22' => if severalLines && quotes < 2 then ['\x22'] else ['\\', '\x22']
  | c =>
      if needsEscape c then
        ['\\', 'u', '0', '0', hexDigit (c.toNat / 16), hexDigit (c.toNat % 16)]
      else [c]

/-- Characters with escapes where they need them; `quotes` counts the quotes in front that stand as
they are. -/
def writeChars (severalLines : Bool) (quotes : Nat) : List Char → List Char
  | [] => []
  | c :: rest =>
      let next := if c = '\x22' && severalLines && quotes < 2 then quotes + 1 else 0
      writeChar severalLines quotes c ++ writeChars severalLines next rest

/-- A text in a form. Over several lines, a text with line ends starts on a line of its own. -/
def writeAs (form : Form) (cs : List Char) : List Char :=
  let lead := if cs.contains '\n' then ['\n'] else []
  match form with
  | .basic => '\x22' :: writeChars false 0 cs ++ ['\x22']
  | .literal => '\x27' :: cs ++ ['\x27']
  | .basicLines =>
      ['\x22', '\x22', '\x22'] ++ lead ++ writeChars true 0 cs ++ ['\x22', '\x22', '\x22']
  | .literalLines => ['\x27', '\x27', '\x27'] ++ lead ++ cs ++ ['\x27', '\x27', '\x27']

/-- A text in its plainest form. -/
def writeText (s : String) : List Char := writeAs (.ofText s.toList) s.toList

/-- A list of texts. Of two or more, each has a line of its own. -/
def writeTexts : List String → List Char
  | [] => ['[', ']']
  | [s] => '[' :: writeText s ++ [']']
  | texts =>
      '[' :: texts.flatMap (fun s => '\n' :: List.replicate 4 ' ' ++ writeText s ++ [',']) ++
        ['\n', ']']

/-- A character of a bare key. -/
def isBareChar (c : Char) : Bool := c.isAlpha || c.isDigit || c == '-' || c == '_'

/-- A key: bare if it can be, else in the plainest form on one line. -/
def writeKey (name : String) : List Char :=
  let cs := name.toList
  if cs.all isBareChar && !cs.isEmpty then cs
  else
    match Form.ofText cs with
    | .literal => writeAs .literal cs
    | _ => writeAs .basic cs

end TypedSql.Toml
