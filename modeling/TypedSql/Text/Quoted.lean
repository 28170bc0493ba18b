/-!
# Quoted texts

The forms in which names and strings are written between quotes.
-/

namespace TypedSql.Text

/-- Writes every quote in a text twice. A quote after a backslash stays single, and two quotes in a
row stay two. `afterBackslash` tells that the text follows a backslash. -/
def doubleQuotes (quote : Char) (afterBackslash : Bool) : List Char → List Char
  | [] => []
  | c :: rest =>
      if c = quote then
        if afterBackslash then c :: doubleQuotes quote true rest
        else
          match rest with
          | next :: after =>
              if next = quote then c :: c :: doubleQuotes quote false after
              else c :: c :: doubleQuotes quote false (next :: after)
          | [] => [c, c]
      else c :: doubleQuotes quote (c == '\\') rest

/-- A text between quotes, with the quotes inside written twice. -/
def quoted (opening closing : Char) (s : String) : String :=
  String.ofList (opening :: doubleQuotes opening false s.toList ++ [closing])

/-- A character as it is written in an `E` string. -/
def backslashEscaped (c : Char) : List Char :=
  match c with
  | '\x27' => ['\\', '\x27']
  | '\\' => ['\\', '\\']
  | '\n' => ['\\', 'n']
  | '\t' => ['\\', 't']
  | '\r' => ['\\', 'r']
  | c => [c]

/-- A number in capital hexadecimal digits, filled up with zeros. -/
def hexPadded (width n : Nat) : List Char :=
  let digits := (Nat.toDigits 16 n).map Char.toUpper
  List.replicate (width - digits.length) '0' ++ digits

/-- A character as it is written in a `U&` string. -/
def codePointEscaped (c : Char) : List Char :=
  if c = '\x27' then ['\x27', '\x27']
  else if c = '\\' then ['\\', '\\']
  else if c.toNat < 128 then [c]
  else if c.toNat ≤ 0xFFFF then '\\' :: hexPadded 4 c.toNat
  else '\\' :: '+' :: hexPadded 6 c.toNat

end TypedSql.Text
