import TypedSql.Toml.Reader

/-!
# Strings of a TOML text

The four forms of a string: between double quotes with escapes or between single quotes as it
stands, each on one line or between threefold quotes over several.
-/

namespace TypedSql.Toml

open Reader

/-- A character that stands for itself between double quotes. -/
def isBasicChar (c : Char) : Bool :=
  c == '\t' || (0x20 ≤ c.toNat && c.toNat ≠ 0x7F && c ≠ '\x22' && c ≠ '\\')

/-- A character that stands for itself between single quotes. -/
def isLiteralChar (c : Char) : Bool :=
  c == '\t' || (0x20 ≤ c.toNat && c.toNat ≠ 0x7F && c ≠ '\x27')

/-- A hexadecimal digit. -/
def isHexDigit (c : Char) : Bool :=
  c.isDigit || ('a' ≤ c && c ≤ 'f') || ('A' ≤ c && c ≤ 'F')

/-- The value of a digit of any base up to sixteen. -/
def digitValue (c : Char) : Nat :=
  if c.isDigit then c.toNat - '0'.toNat
  else if 'a' ≤ c then c.toNat - 'a'.toNat + 10
  else c.toNat - 'A'.toNat + 10

/-- The number that digits of a base stand for. -/
def numberOf (base : Nat) (digits : List Char) : Nat :=
  digits.foldl (fun n c => n * base + digitValue c) 0

/-- A given number of hexadecimal digits. -/
def hexDigits (count : Nat) : Reader (List Char) := fun cs =>
  let digits := (cs.take count).takeWhile isHexDigit
  if digits.length = count then .ok (digits, cs.drop count) else .error (.bare cs)

/-- A code point in a given number of hexadecimal digits. -/
def codePoint (count : Nat) : Reader Char :=
  checked (hexDigits count) fun digits =>
    let n := numberOf 16 digits
    if n.isValidChar then .ok (Char.ofNat n) else .error .outOfRange

/-- The characters that a backslash may stand before, in the order in which messages list them, with
what they then mean. -/
def escapes : List (Char × Char) :=
  [('b', '\x08'), ('f', '\x0c'), ('n', '\n'), ('r', '\r'), ('t', '\t'), ('\\', '\\'),
    ('\x22', '\x22')]

/-- The names of the characters that a backslash may stand before. -/
def escapeNames : List String :=
  ["`b`", "`f`", "`n`", "`r`", "`t`", "`u`", "`U`", "`\\`", "`\"`"]

/-- The place of a wrong escape: after a character of one byte, else at it. -/
def escapeFault (c : Char) (rest : List Char) : Fault :=
  ⟨if c.utf8Size = 1 then rest else c :: rest, true, some "escape sequence", escapeNames, none⟩

/-- What follows a backslash. -/
def escaped : Reader Char := fun
  | [] => .error (.bare [])
  | 'u' :: rest => labelled "unicode 4-digit hex code" (commit (codePoint 4)) rest
  | 'U' :: rest => labelled "unicode 8-digit hex code" (commit (codePoint 8)) rest
  | c :: rest =>
      match escapes.lookup c with
      | some meaning => .ok (meaning, rest)
      | none => .error (escapeFault c rest)

/-- A piece of a string between double quotes. -/
def basicPiece : Reader (List Char) :=
  orTry (oneOrMore isBasicChar) do
    let _ ← char '\\'
    return [← escaped]

/-- A string between double quotes. -/
def basicString : Reader String := do
  let _ ← char '\x22'
  let pieces ← repeated basicPiece
  let _ ← labelled "basic string" (commit (char '\x22'))
  return String.ofList pieces.flatten

/-- A string between single quotes. -/
def literalString : Reader String :=
  labelled "literal string" do
    let _ ← char '\x27'
    let content ← zeroOrMore isLiteralChar
    let _ ← commit (char '\x27')
    return String.ofList content

/-- Three quotes. -/
def threeQuotes (quote : Char) : Reader Unit := literal [quote, quote, quote]

/-- One or two quotes inside a string between threefold quotes, before what `next` reads. -/
def innerQuotes (quote : Char) (next : Reader Unit) : Reader (List Char) :=
  orTry
    (do literal [quote, quote]; ahead next; return [quote, quote])
    (do literal [quote]; ahead next; return [quote])

/-- A backslash at the end of a line, with the blanks and line ends after it. -/
def continuation : Reader Unit := do
  let _ ← char '\\'
  let _ ← blanks
  newline
  discard (repeated (orTry newline (discard (oneOrMore isBlank))))

/-- A piece of a string between threefold double quotes, none of which are quotes. -/
def basicLinesPiece : Reader (List Char) :=
  orTry (oneOrMore isBasicChar) <|
    orTry (do continuation; discard (repeated continuation); return []) <|
      orTry (do let _ ← char '\\'; return [← escaped]) (do newline; return ['\n'])

/-- Quotes inside a string between threefold double quotes, and the pieces after them. -/
def basicLinesQuoted : Reader (List Char) := do
  let quotes ← innerQuotes '\x22' (discard basicLinesPiece)
  return quotes ++ (← repeated basicLinesPiece).flatten

/-- A string between threefold double quotes. A line end at its start is dropped. -/
def basicLines : Reader String :=
  labelled "multiline basic string" do
    threeQuotes '\x22'
    let _ ← optional newline
    let body ← commit do
      let first ← repeated basicLinesPiece
      let more ← repeated basicLinesQuoted
      let last ← optional (innerQuotes '\x22' (threeQuotes '\x22'))
      return first.flatten ++ more.flatten ++ last.getD []
    commit (threeQuotes '\x22')
    return String.ofList body

/-- A character of a string between threefold single quotes that is no quote. -/
def literalLinesChar : Reader (List Char) :=
  orTry (return [← charOf isLiteralChar]) (do newline; return ['\n'])

/-- Quotes inside a string between threefold single quotes, and the characters after them. -/
def literalLinesQuoted : Reader (List Char) := do
  let quotes ← innerQuotes '\x27' (discard literalLinesChar)
  return quotes ++ (← repeated literalLinesChar).flatten

/-- A string between threefold single quotes. A line end at its start is dropped. -/
def literalLines : Reader String :=
  labelled "multiline literal string" do
    threeQuotes '\x27'
    let _ ← optional newline
    let body ← commit do
      let first ← repeated literalLinesChar
      let more ← repeated literalLinesQuoted
      let last ← optional (innerQuotes '\x27' (threeQuotes '\x27'))
      return first.flatten ++ more.flatten ++ last.getD []
    commit (threeQuotes '\x27')
    return String.ofList body

/-- A string of any form. -/
def string : Reader String :=
  orTry basicLines <| orTry basicString <| orTry literalLines literalString

end TypedSql.Toml
