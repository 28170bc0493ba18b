import TypedSql.Dialect
import TypedSql.Text.Blank
import TypedSql.Token

/-!
# Reading tokens

`Lexer.token` reads one token from the front of a text, and `Lexer.tokens` reads a whole text. A
reading that fails names the text that was left at the place of the failure, which gives its
position.
-/

namespace TypedSql

/-- A place in a text: lines and columns count from one, columns count characters. -/
structure Position where
  line : Nat
  column : Nat
  deriving DecidableEq, Repr, Inhabited

namespace Position

/-- The place of the first character. -/
def start : Position := ⟨1, 1⟩

/-- The place after a character. -/
def after (p : Position) (c : Char) : Position :=
  if c = '\n' then ⟨p.line + 1, 1⟩ else ⟨p.line, p.column + 1⟩

/-- The place after a text. -/
def afterAll (p : Position) (s : List Char) : Position := s.foldl after p

/-- How a place is told in messages. -/
def text (p : Position) : String := s!" at Line: {p.line}, Column: {p.column}"

end Position

/-- A token with the place where it starts. -/
structure Lexeme where
  token : Token
  position : Position
  deriving DecidableEq, Repr, Inhabited

namespace Lexer

open Text

/-- Why a text cannot be read as tokens. -/
inductive Cause
  | openString
  | openEscapedString
  | openUnicodeString
  | openName (closing : Char)
  | openComment
  | openDollarString
  | openTaggedString
  | endInEscape
  | badEscapeDigit (c : Char)
  | badCodePoint (n : Nat)
  deriving DecidableEq, Repr, Inhabited

/-- A failure with the text that was left where it was found. -/
structure Fault where
  cause : Cause
  left : List Char
  deriving Repr, Inhabited

/-- The hexadecimal digits of a number, without leading zeros. -/
def hexText (n : Nat) : String := String.ofList (Nat.toDigits 16 n)

/-- The sentence for a failure. -/
def Cause.message : Cause → String
  | openString => "Unterminated string literal"
  | openEscapedString => "Unterminated encoded string literal"
  | openUnicodeString => "Unterminated unicode encoded string literal"
  | openName closing => s!"Expected close delimiter '{closing}' before EOF."
  | openComment => "Unexpected EOF while in a multi-line comment"
  | openDollarString => "Unterminated dollar-quoted string"
  | openTaggedString => "Unterminated dollar-quoted, expected $"
  | endInEscape => "Unexpected EOF while parsing hex digit in escaped unicode string."
  | badEscapeDigit c => s!"Invalid hex digit in escaped unicode string: {c}"
  | badCodePoint n => s!"Invalid unicode character: {hexText n}"

/-- A token and the text after it. -/
abbrev Scan := Except Fault (Token × List Char)

/-! ## Names -/

/-- A bare name that starts with the given characters. -/
def bareWord (d : Dialect) (first : List Char) (rest : List Char) : Token × List Char :=
  (.word ⟨String.ofList (first ++ rest.takeWhile d.isNamePart), none⟩, rest.dropWhile d.isNamePart)

/-- The content of a delimited text up to its closing character, which is written twice inside. -/
def delimited (closing : Char) : List Char → Option (List Char × List Char)
  | [] => none
  | c :: rest =>
      if c = closing then
        match rest with
        | next :: after =>
            if next = closing then (delimited closing after).map fun (s, left) => (c :: s, left)
            else some ([], rest)
        | [] => some ([], [])
      else (delimited closing rest).map fun (s, left) => (c :: s, left)

/-- A delimited name; `rest` follows the opening quote. -/
def quotedName (quote : Char) (rest : List Char) : Scan :=
  match delimited (Word.closing quote) rest with
  | some (content, left) => .ok (.word ⟨String.ofList content, some quote⟩, left)
  | none => .error ⟨.openName (Word.closing quote), quote :: rest⟩

/-! ## Strings -/

/-- What a backslash and the given character stand for. -/
def escapedChar (c : Char) : Char :=
  match c with
  | '0' => '\x00'
  | 'a' => '\x07'
  | 'b' => '\x08'
  | 'f' => '\x0c'
  | 'n' => '\n'
  | 'r' => '\r'
  | 't' => '\t'
  | 'Z' => '\x1a'
  | c => c

/-- The content of a string up to its closing quote, which is written twice inside. -/
def stringContent (quote : Char) (escapes : Bool) : List Char → Option (List Char × List Char)
  | [] => none
  | [c] => if c = quote then some ([], []) else none
  | c :: next :: rest =>
      if c = quote then
        if next = quote then
          (stringContent quote escapes rest).map fun (s, left) => (c :: s, left)
        else some ([], next :: rest)
      else if c = '\\' && escapes then
        (stringContent quote escapes rest).map fun (s, left) => (escapedChar next :: s, left)
      else (stringContent quote escapes (next :: rest)).map fun (s, left) => (c :: s, left)

/-- The content of a string up to three closing quotes in a row. `run` counts the quotes just
before; the content is gathered backwards. -/
def tripleContent (quote : Char) (escapes : Bool) (run : Nat) (gathered : List Char) :
    List Char → Option (List Char × List Char)
  | [] => none
  | c :: rest =>
      if c = quote then
        if run = 2 then some ((gathered.drop 2).reverse, rest)
        else tripleContent quote escapes (run + 1) (c :: gathered) rest
      else if c = '\\' && escapes then
        match rest with
        | [] => none
        | next :: rest => tripleContent quote escapes 0 (escapedChar next :: gathered) rest
      else tripleContent quote escapes 0 (c :: gathered) rest

/-- The single or double form of a quote character. -/
def plainQuote (quote : Char) : StringQuote := if quote = '\x22' then .double else .single

/-- The tripled form of a quote character. -/
def tripleQuote (quote : Char) : StringQuote :=
  if quote = '\x22' then .tripleDouble else .tripleSingle

/-- A string between single quotes or between double quotes; `blamed` is the text whose start is
named as the place of a string that never ends. -/
def stringOrFault (mark : StringMark) (escapes : Bool) (quote : Char) (blamed rest : List Char) :
    Scan :=
  match stringContent quote escapes rest with
  | some (content, left) => .ok (.string mark (plainQuote quote) (String.ofList content), left)
  | none => .error ⟨.openString, blamed⟩

/-- A string that only one quote may open. One that never ends is found at its quote. -/
def plainString (mark : StringMark) (escapes : Bool) (quote : Char) (rest : List Char) : Scan :=
  stringOrFault mark escapes quote (quote :: rest) rest

/-- A string that three quotes may open as well; two quotes alone are an empty string. One that
never ends is found after its opening quotes. -/
def tripleableString (mark : StringMark) (escapes : Bool) (quote : Char) (rest : List Char) :
    Scan :=
  match rest with
  | second :: afterSecond =>
      if second = quote then
        match afterSecond with
        | third :: afterThird =>
            if third = quote then
              match tripleContent quote escapes 0 [] afterThird with
              | some (content, left) =>
                  .ok (.string mark (tripleQuote quote) (String.ofList content), left)
              | none => .error ⟨.openString, afterThird⟩
            else .ok (.string mark (plainQuote quote) "", afterSecond)
        | [] => .ok (.string mark (plainQuote quote) "", [])
      else stringOrFault mark escapes quote rest rest
  | [] => .error ⟨.openString, []⟩

/-- A string of a dialect that may or may not have tripled quotes. -/
def stringIn (triple : Bool) (mark : StringMark) (escapes : Bool) (quote : Char)
    (rest : List Char) : Scan :=
  if triple then tripleableString mark escapes quote rest else plainString mark escapes quote rest

/-- The value of a hexadecimal digit. -/
def hexDigit? (c : Char) : Option Nat :=
  if c.isDigit then some (c.toNat - 48)
  else if 'a' ≤ c && c ≤ 'f' then some (c.toNat - 87)
  else if 'A' ≤ c && c ≤ 'F' then some (c.toNat - 55)
  else none

/-- The value of an octal digit. -/
def octalDigit? (c : Char) : Option Nat :=
  if '0' ≤ c && c ≤ '7' then some (c.toNat - 48) else none

/-- The character of a code point. -/
def charOf? (n : Nat) : Option Char :=
  if n.isValidChar then some (Char.ofNat n) else none

/-- The value of a row of hexadecimal digits, which a plus sign may precede. -/
def hexValue? (digits : List Char) : Option Nat :=
  let digits := match digits with
    | '+' :: rest => rest
    | digits => digits
  if digits.isEmpty then none
  else digits.foldlM (fun n c => (hexDigit? c).map (n * 16 + ·)) 0

/-- A byte stands for an ASCII character; higher bits are dropped. -/
def byteChar? (n : Nat) : Option Char :=
  if n % 256 ≤ 127 then some (Char.ofNat (n % 256)) else none

/-- At most `limit` digits from the front of a text, as a number, with their count. -/
def digitRun (digit? : Char → Option Nat) (base : Nat) : Nat → List Char → Nat × Nat × List Char
  | limit + 1, c :: rest =>
      match digit? c with
      | none => (0, 0, c :: rest)
      | some v =>
          let (n, count, left) := digitRun digit? base limit rest
          (v * base.pow count + n, count + 1, left)
  | _, s => (0, 0, s)

/-- A code point written with exactly `count` hexadecimal digits. -/
def fixedEscape (count : Nat) (s : List Char) : Option (Char × List Char) :=
  if s.length < count then none
  else do
    let c ← (hexValue? (s.take count)).bind charOf?
    pure (c, s.drop count)

/-- The character that an escape in an `E` string stands for; the text follows the backslash. -/
def escapeSequence : List Char → Option (Char × List Char)
  | [] => none
  | 'b' :: rest => some ('\x08', rest)
  | 'f' :: rest => some ('\x0c', rest)
  | 'n' :: rest => some ('\n', rest)
  | 'r' :: rest => some ('\r', rest)
  | 't' :: rest => some ('\t', rest)
  | 'u' :: rest => fixedEscape 4 rest
  | 'U' :: rest => fixedEscape 8 rest
  | 'x' :: rest =>
      match digitRun hexDigit? 16 2 rest with
      | (_, 0, left) => some ('x', left)
      | (n, _, left) => (byteChar? n).map (·, left)
  | c :: rest =>
      match octalDigit? c with
      | none => some (c, rest)
      | some _ =>
          let (n, _, left) := digitRun octalDigit? 8 3 (c :: rest)
          (byteChar? n).map (·, left)

/-- The content of an `E` string. No escape may stand for the null character. -/
def escapedContent : Nat → List Char → Option (List Char × List Char)
  | 0, _ => none
  | _, [] => none
  | fuel + 1, c :: rest =>
      if c = '\x27' then
        match rest with
        | '\x27' :: after => (escapedContent fuel after).map fun (s, left) => (c :: s, left)
        | _ => some ([], rest)
      else if c = '\\' then
        match escapeSequence rest with
        | none => none
        | some (e, after) =>
            if e = '\x00' then none
            else (escapedContent fuel after).map fun (s, left) => (e :: s, left)
      else (escapedContent fuel rest).map fun (s, left) => (c :: s, left)

/-- Reads exactly `count` hexadecimal digits, onto the value read so far. -/
def codePoint : Nat → Nat → List Char → Except Fault (Char × List Char)
  | 0, n, s =>
      match charOf? n with
      | some c => .ok (c, s)
      | none => .error ⟨.badCodePoint n, s⟩
  | _ + 1, _, [] => .error ⟨.endInEscape, []⟩
  | count + 1, n, c :: rest =>
      match hexDigit? c with
      | some v => codePoint count (n * 16 + v) rest
      | none => .error ⟨.badEscapeDigit c, rest⟩

/-- The content of a `U&` string. -/
def unicodeContent : Nat → List Char → Except Fault (List Char × List Char)
  | 0, s => .error ⟨.openUnicodeString, s⟩
  | _, [] => .error ⟨.openUnicodeString, []⟩
  | fuel + 1, c :: rest =>
      let cons (c : Char) (s : List Char) :=
        (unicodeContent fuel s).map fun (s, left) => (c :: s, left)
      if c = '\x27' then
        match rest with
        | '\x27' :: after => cons c after
        | _ => .ok ([], rest)
      else if c = '\\' then
        match rest with
        | '\\' :: after => cons '\\' after
        | '+' :: after => (codePoint 6 0 after).bind fun (c, left) => cons c left
        | rest => (codePoint 4 0 rest).bind fun (c, left) => cons c left
      else cons c rest

/-! ## Dollar strings -/

/-- The content of a string between two pairs of dollar signs. A single dollar sign inside belongs
to the content together with the character after it. -/
def dollarContent (afterDollar : Bool) : List Char → Option (List Char × List Char)
  | [] => none
  | c :: rest =>
      if afterDollar then
        if c = '$' then some ([], rest)
        else (dollarContent false rest).map fun (s, left) => ('$' :: c :: s, left)
      else if c = '$' then dollarContent true rest
      else (dollarContent false rest).map fun (s, left) => (c :: s, left)

/-- The content of a string up to its tag between dollar signs, with that end. `wanted` is what has
still to come of the tag after a dollar sign. A character that differs from it is content, and so is
all before it; only after that character may another dollar sign open the end. -/
def taggedContent (tag : List Char) : Option (List Char) → List Char →
    Option (List Char × List Char)
  | _, [] => none
  | some [], c :: rest =>
      if c = '$' then some ([], rest)
      else (taggedContent tag none rest).map fun (s, left) => (c :: s, left)
  | some (t :: wanted), c :: rest =>
      (taggedContent tag (if c = t then some wanted else none) rest).map fun (s, left) =>
        (c :: s, left)
  | none, c :: rest =>
      (taggedContent tag (if c = '$' then some tag else none) rest).map fun (s, left) =>
        (c :: s, left)

/-- A dollar string or a placeholder; `rest` follows the dollar sign. -/
def dollar (rest : List Char) : Scan :=
  match rest with
  | '$' :: after =>
      match dollarContent false after with
      | some (content, left) => .ok (.dollarString none (String.ofList content), left)
      | none => .error ⟨.openDollarString, []⟩
  | rest =>
      let isTagChar (c : Char) := isAlphanumeric c || c == '_'
      let tag := rest.takeWhile isTagChar
      match rest.dropWhile isTagChar with
      | '$' :: after =>
          match taggedContent tag none after with
          | some (content, left) =>
              let content := content.take (content.length - (tag.length + 1))
              .ok (.dollarString (some (String.ofList tag)) (String.ofList content), left)
          | none => .error ⟨.openTaggedString, []⟩
      | left => .ok (.placeholder (String.ofList ('$' :: tag)), left)

/-! ## Comments -/

/-- A comment up to and including the end of its line. -/
def lineComment (opening : String) (rest : List Char) : Token × List Char :=
  let content := rest.takeWhile (· ≠ '\n')
  match rest.dropWhile (· ≠ '\n') with
  | [] => (.gap (.lineComment opening (String.ofList content)), [])
  | c :: left => (.gap (.lineComment opening (String.ofList (content ++ [c]))), left)

/-- The content of a block comment. Comments nest: `depth` counts those that are open besides the
outermost, `last` is the character before. -/
def blockContent (depth : Nat) (last : Char) : List Char → Option (List Char × List Char)
  | [] => none
  | c :: rest =>
      if last = '/' && c = '*' then
        (blockContent (depth + 1) c rest).map fun (s, left) => (c :: s, left)
      else if last = '*' && c = '/' then
        match depth with
        | 0 => some ([c], rest)
        | depth + 1 => (blockContent depth c rest).map fun (s, left) => (c :: s, left)
      else (blockContent depth c rest).map fun (s, left) => (c :: s, left)

/-- A block comment; `rest` follows its opening. -/
def blockComment (rest : List Char) : Scan :=
  match blockContent 0 ' ' rest with
  | some (content, left) =>
      .ok (.gap (.blockComment (String.ofList (content.take (content.length - 2)))), left)
  | none => .error ⟨.openComment, []⟩

/-! ## Numbers -/

/-- An exponent, where digits follow its letter and sign. -/
def exponent (s : List Char) : List Char × List Char :=
  let digitsAfter (lead rest : List Char) :=
    if (rest.head?.map Char.isDigit).getD false then
      (lead ++ rest.takeWhile Char.isDigit, rest.dropWhile Char.isDigit)
    else ([], s)
  match s with
  | [] => ([], [])
  | e :: rest =>
      if e = 'e' || e = 'E' then
        match rest with
        | sign :: after =>
            if sign = '+' || sign = '-' then digitsAfter [e, sign] after else digitsAfter [e] rest
        | [] => ([], s)
      else ([], s)

/-- Digits with at most one point among them. -/
def decimal (s : List Char) : List Char × List Char :=
  match s.dropWhile Char.isDigit with
  | '.' :: after =>
      (s.takeWhile Char.isDigit ++ '.' :: after.takeWhile Char.isDigit,
        after.dropWhile Char.isDigit)
  | rest => (s.takeWhile Char.isDigit, rest)

/-- A number after its digits: an exponent and the mark of a long one may follow. Where a dialect
has names that start with digits, the number is one when a name goes on after it. After an `e` the
digits stay a number of their own. -/
def numberFrom (d : Dialect) (digits rest : List Char) : Token × List Char :=
  let startsExponent := rest.head? = some 'e' || rest.head? = some 'E'
  let (power, rest) := exponent rest
  let name := rest.takeWhile d.isNamePart
  if d.hasNumericNames && !startsExponent && !name.isEmpty then
    (.word ⟨String.ofList (digits ++ name), none⟩, rest.dropWhile d.isNamePart)
  else
    let text := String.ofList (digits ++ power)
    match rest with
    | 'L' :: left => (.number text true, left)
    | left => (.number text false, left)

/-- Whether a character is a hexadecimal digit. -/
def isHexDigit (c : Char) : Bool := (hexDigit? c).isSome

/-- A number, a dot, a name that starts with digits, or the digits of a hexadecimal string. -/
def number (d : Dialect) (s : List Char) : Token × List Char :=
  match s.takeWhile Char.isDigit, s.dropWhile Char.isDigit with
  | ['0'], 'x' :: rest =>
      (.string .hex .single (String.ofList (rest.takeWhile isHexDigit)), rest.dropWhile isHexDigit)
  | _, _ =>
      let (digits, rest) := decimal s
      if digits = ['.'] then (.symbol .dot, rest) else numberFrom d digits rest

/-! ## Operators -/

/-- An operator, or a longer one of one's own where the dialect lets it go on. -/
def extensible (d : Dialect) (s : Symbol) (rest : List Char) : Token × List Char :=
  match rest.takeWhile d.isOperatorPart with
  | [] => (.symbol s, rest)
  | more => (.operator (s.text ++ String.ofList more), rest.dropWhile d.isOperatorPart)

/-- The operator that a character is on its own. -/
def operatorOf? (c : Char) : Option Symbol :=
  match c with
  | '(' => some .leftParen
  | ')' => some .rightParen
  | ',' => some .comma
  | '-' => some .minus
  | '/' => some .slash
  | '+' => some .plus
  | '*' => some .star
  | '%' => some .percent
  | '|' => some .pipe
  | '=' => some .equal
  | '!' => some .bang
  | '<' => some .less
  | '>' => some .greater
  | ':' => some .colon
  | ';' => some .semicolon
  | '\\' => some .backslash
  | '[' => some .leftBracket
  | ']' => some .rightBracket
  | '&' => some .ampersand
  | '^' => some .caret
  | '\x7b' => some .leftBrace
  | '\x7d' => some .rightBrace
  | '~' => some .tilde
  | '#' => some .hash
  | '@' => some .atSign
  | _ => none

/-- The operator that one more character makes of an operator. -/
def operatorWith? (d : Dialect) (s : Symbol) (c : Char) : Option Symbol :=
  match s, c with
  | .minus, '>' => some .arrow
  | .arrow, '>' => some .longArrow
  | .slash, '/' => if d = .ansi then some .doubleSlash else none
  | .pipe, '/' => some .pipeSlash
  | .pipe, '|' => some .doublePipe
  | .doublePipe, '/' => some .doublePipeSlash
  | .equal, '>' => some .doubleArrow
  | .equal, '=' => some .doubleEqual
  | .bang, '=' => some .notEqual
  | .bang, '!' => some .doubleBang
  | .bang, '~' => some .bangTilde
  | .bangTilde, '*' => some .bangTildeStar
  | .bangTilde, '~' => some .bangDoubleTilde
  | .bangDoubleTilde, '*' => some .bangDoubleTildeStar
  | .less, '=' => some .lessEqual
  | .lessEqual, '>' => some .spaceship
  | .less, '>' => some .notEqual
  | .less, '<' => some .shiftLeft
  | .less, '@' => some .arrowAt
  | .greater, '=' => some .greaterEqual
  | .greater, '>' => some .shiftRight
  | .colon, ':' => some .doubleColon
  | .colon, '=' => some .assign
  | .ampersand, '&' => some .doubleAmpersand
  | .caret, '@' => some .caretAt
  | .tilde, '*' => some .tildeStar
  | .tilde, '~' => some .doubleTilde
  | .doubleTilde, '*' => some .doubleTildeStar
  | .hash, '-' => some .hashMinus
  | .hash, '>' => some .hashArrow
  | .hashArrow, '>' => some .hashLongArrow
  | .atSign, '>' => some .atArrow
  | .atSign, '?' => some .atQuestion
  | .atSign, '@' => some .doubleAt
  | _, _ => none

/-- The longest operator that starts with the one read so far. -/
def longestOperator (d : Dialect) (s : Symbol) : List Char → Symbol × List Char
  | [] => (s, [])
  | c :: rest =>
      match operatorWith? d s c with
      | some longer => longestOperator d longer rest
      | none => (s, c :: rest)

/-- The characters whose operators may go on where a dialect allows it. -/
def opensExtensible (c : Char) : Bool := "-%|<>&~#".toList.contains c

/-- A name that a sign opens. The character after the sign is taken as it is, unless the sign is an
operator with it or stands alone. -/
def signedWord (d : Dialect) (c : Char) (rest : List Char) : Option (Token × List Char) :=
  if d.isNameStart c then
    match c, rest with
    | '#', first :: after =>
        if "-> ".toList.contains first then none else some (bareWord d ['#', first] after)
    | '@', ['@'] => none
    | '@', '@' :: first :: after =>
        if first = ' ' then none else some (bareWord d ['@', '@', first] after)
    | '@', first :: after =>
        if ">? '\"`".toList.contains first then none else some (bareWord d ['@', first] after)
    | _, _ => none
  else none

/-- The longest operator that starts with `c`, or a name where `c` is a sign that opens one. -/
def operator (d : Dialect) (c : Char) (rest : List Char) : Option (Token × List Char) :=
  match signedWord d c rest with
  | some word => some word
  | none =>
      (operatorOf? c).map fun s =>
        let (s, left) := longestOperator d s rest
        if opensExtensible c then extensible d s left else (.symbol s, left)

/-- A question mark. Where it is an operator it takes the next character with it; elsewhere it is a
placeholder with an optional number. -/
def question (d : Dialect) (rest : List Char) : Token × List Char :=
  match d, rest with
  | .postgres, '|' :: r => (.symbol .questionPipe, r)
  | .postgres, '&' :: r => (.symbol .questionAnd, r)
  | .postgres, r => (.symbol .question, r.drop 1)
  | _, r =>
      (.placeholder (String.ofList ('?' :: r.takeWhile isNumeral)), r.dropWhile isNumeral)

/-! ## Tokens -/

/-- A string that a letter marks, where a quote follows the letter. -/
def markedString (d : Dialect) (c : Char) (rest : List Char) : Option Scan :=
  match c.toLower, rest with
  | 'b', quote :: after =>
      if d.hasByteStrings && (quote = '\x27' || quote = '\x22') then
        some (stringIn d.hasTripleQuotes .byte false quote after)
      else none
  | 'r', quote :: after =>
      if d.hasRawStrings && (quote = '\x27' || quote = '\x22') then
        some (tripleableString .raw false quote after)
      else none
  | 'n', '\x27' :: after => some (plainString .national true '\x27' after)
  | 'x', '\x27' :: after => some (plainString .hex true '\x27' after)
  | 'e', '\x27' :: after =>
      some <| match escapedContent (after.length + 1) after with
        | some (content, left) => .ok (.string .escaped .single (String.ofList content), left)
        | none => .error ⟨.openEscapedString, c :: rest⟩
  | 'u', '&' :: '\x27' :: after =>
      if d.hasUnicodeStrings then
        some <| (unicodeContent (after.length + 1) after).map fun (content, left) =>
          (.string .unicode .single (String.ofList content), left)
      else none
  | _, _ => none

/-- A comment, where one starts here. -/
def comment (d : Dialect) (c : Char) (rest : List Char) : Option Scan :=
  match c, rest with
  | '-', '-' :: after => some (.ok (lineComment "--" after))
  | '/', '*' :: after => some (blockComment after)
  | '#', after => if d.hasHashComments then some (.ok (lineComment "#" after)) else none
  | _, _ => none

/-- The token at the front of a text that starts with `c`, where that is no string, no delimited
name and no number. -/
def bareToken (d : Dialect) (c : Char) (rest : List Char) : Scan :=
  if let some scan := comment d c rest then scan
  else if let some scan := operator d c rest then .ok scan
  else if c = '?' then .ok (question d rest)
  else if d.isNameStart c then .ok (bareWord d [c] rest)
  else if c = '$' then dollar rest
  else if isBlank c then .ok (.gap .space, rest)
  else .ok (.character c, rest)

/-- The token at the front of a text that starts with `c`, where `c` is neither a single quote nor
one of the usual blanks. -/
def ordinaryToken (d : Dialect) (c : Char) (rest : List Char) : Scan :=
  if let some scan := markedString d c rest then scan
  else if d.isNameQuote c then quotedName c rest
  else if c = '\x22' then
    stringIn d.hasTripleQuotes .plain d.hasBackslashEscapes '\x22' rest
  else if c.isDigit || c = '.' then .ok (number d (c :: rest))
  else bareToken d c rest

/-- The token at the front of a text that starts with `c`. -/
def token (d : Dialect) (c : Char) (rest : List Char) : Scan :=
  match c with
  | ' ' => .ok (.gap .space, rest)
  | '\t' => .ok (.gap .tab, rest)
  | '\n' => .ok (.gap .newline, rest)
  | '\r' =>
      match rest with
      | '\n' :: after => .ok (.gap .newline, after)
      | rest => .ok (.gap .newline, rest)
  | '\x27' => stringIn d.hasTripleQuotes .plain d.hasBackslashEscapes '\x27' rest
  | c => ordinaryToken d c rest

/-- Why a text cannot be read as tokens, and where. -/
structure LexError where
  cause : Cause
  position : Position
  deriving DecidableEq, Repr, Inhabited

/-- The sentence for a failure, with its place. -/
def LexError.message (e : LexError) : String := e.cause.message ++ e.position.text

/-- The tokens of a text with their places, from a place on. -/
def lexemesFrom (d : Dialect) (position : Position) (s : List Char) :
    Except LexError (List Lexeme) :=
  match s with
  | [] => .ok []
  | c :: rest =>
      match token d c rest with
      | .error fault =>
          .error ⟨fault.cause,
            position.afterAll ((c :: rest).take ((c :: rest).length - fault.left.length))⟩
      | .ok (token, left) =>
          if _h : left.length < (c :: rest).length then
            let next := position.afterAll ((c :: rest).take ((c :: rest).length - left.length))
            (lexemesFrom d next left).map (⟨token, position⟩ :: ·)
          else .ok [⟨token, position⟩]
termination_by s.length
decreasing_by assumption

/-- The tokens of a text with their places. -/
def lexemes (d : Dialect) (text : String) : Except LexError (List Lexeme) :=
  lexemesFrom d .start text.toList

/-- The tokens of a text. -/
def tokens (d : Dialect) (text : String) : Except LexError (List Token) :=
  (lexemes d text).map (·.map Lexeme.token)

end Lexer

end TypedSql
