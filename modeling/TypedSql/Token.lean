import TypedSql.Text.Capital

/-!
# Tokens

The tokens of SQL and the text in which each of them is written out again.
-/

namespace TypedSql

/-- A name or keyword. The quote is the character that opens a delimited name. -/
structure Word where
  value : String
  quote : Option Char
  deriving DecidableEq, Repr, Inhabited

namespace Word

/-- The character that closes a delimited name. -/
def closing (quote : Char) : Char := if quote = '[' then ']' else quote

/-- A word as it is written; quotes inside are not doubled. -/
def text (w : Word) : String :=
  match w.quote with
  | some quote => quote.toString ++ w.value ++ (closing quote).toString
  | none => w.value

/-- The word in capitals, under which keywords are known; a delimited name is no keyword. -/
def keyword (w : Word) : String :=
  match w.quote with
  | some _ => ""
  | none => Text.capitals w.value

end Word

/-- What a string literal opens with before its quote. -/
inductive StringMark
  | plain
  | byte
  | raw
  | national
  | escaped
  | unicode
  | hex
  deriving DecidableEq, Repr, Inhabited

/-- The mark as it is written. -/
def StringMark.text : StringMark → String
  | plain => ""
  | byte => "B"
  | raw => "R"
  | national => "N"
  | escaped => "E"
  | unicode => "U&"
  | hex => "X"

/-- The quotes around a string literal. -/
inductive StringQuote
  | single
  | double
  | tripleSingle
  | tripleDouble
  deriving DecidableEq, Repr, Inhabited

/-- The quotes as they are written. -/
def StringQuote.text : StringQuote → String
  | single => "'"
  | double => "\""
  | tripleSingle => "'''"
  | tripleDouble => "\"\"\""

/-- What stands between tokens. -/
inductive Gap
  | space
  | newline
  | tab
  | lineComment (opening content : String)
  | blockComment (content : String)
  deriving DecidableEq, Repr, Inhabited

/-- A gap as it is written. -/
def Gap.text : Gap → String
  | space => " "
  | newline => "\n"
  | tab => "\t"
  | lineComment opening content => opening ++ content
  | blockComment content => "/*" ++ content ++ "*/"

/-- Punctuation and the operators that have a meaning of their own. -/
inductive Symbol
  | comma | dot | colon | doubleColon | semicolon | backslash
  | leftParen | rightParen | leftBracket | rightBracket | leftBrace | rightBrace
  | plus | minus | star | slash | doubleSlash | percent
  | equal | doubleEqual | notEqual | less | greater | lessEqual | greaterEqual | spaceship
  | assign | doubleArrow | arrow | longArrow | hashArrow | hashLongArrow
  | atArrow | arrowAt | hashMinus | atQuestion | doubleAt | atSign
  | question | questionAnd | questionPipe
  | pipe | doublePipe | pipeSlash | doublePipeSlash | ampersand | doubleAmpersand
  | caret | caretAt | hash | shiftLeft | shiftRight
  | tilde | tildeStar | doubleTilde | doubleTildeStar
  | bang | doubleBang | bangTilde | bangTildeStar | bangDoubleTilde | bangDoubleTildeStar
  deriving DecidableEq, Repr, Inhabited

/-- A symbol as it is written. -/
def Symbol.text : Symbol → String
  | comma => ","
  | dot => "."
  | colon => ":"
  | doubleColon => "::"
  | semicolon => ";"
  | backslash => "\\"
  | leftParen => "("
  | rightParen => ")"
  | leftBracket => "["
  | rightBracket => "]"
  | leftBrace => "\x7b"
  | rightBrace => "\x7d"
  | plus => "+"
  | minus => "-"
  | star => "*"
  | slash => "/"
  | doubleSlash => "//"
  | percent => "%"
  | equal => "="
  | doubleEqual => "=="
  | notEqual => "<>"
  | less => "<"
  | greater => ">"
  | lessEqual => "<="
  | greaterEqual => ">="
  | spaceship => "<=>"
  | assign => ":="
  | doubleArrow => "=>"
  | arrow => "->"
  | longArrow => "->>"
  | hashArrow => "#>"
  | hashLongArrow => "#>>"
  | atArrow => "@>"
  | arrowAt => "<@"
  | hashMinus => "#-"
  | atQuestion => "@?"
  | doubleAt => "@@"
  | atSign => "@"
  | question => "?"
  | questionAnd => "?&"
  | questionPipe => "?|"
  | pipe => "|"
  | doublePipe => "||"
  | pipeSlash => "|/"
  | doublePipeSlash => "||/"
  | ampersand => "&"
  | doubleAmpersand => "&&"
  | caret => "^"
  | caretAt => "^@"
  | hash => "#"
  | shiftLeft => "<<"
  | shiftRight => ">>"
  | tilde => "~"
  | tildeStar => "~*"
  | doubleTilde => "~~"
  | doubleTildeStar => "~~*"
  | bang => "!"
  | doubleBang => "!!"
  | bangTilde => "!~"
  | bangTildeStar => "!~*"
  | bangDoubleTilde => "!~~"
  | bangDoubleTildeStar => "!~~*"

/-- A token. String literals hold their content with the escapes taken out. -/
inductive Token
  | word (w : Word)
  | number (digits : String) (long : Bool)
  | string (mark : StringMark) (quote : StringQuote) (content : String)
  | dollarString (tag : Option String) (content : String)
  | gap (g : Gap)
  | symbol (s : Symbol)
  | operator (text : String)
  | placeholder (text : String)
  | character (c : Char)
  deriving DecidableEq, Repr, Inhabited

namespace Token

/-- A token written out. The content of a string goes between its quotes as it is, and no escapes
are put back. -/
def text : Token → String
  | word w => w.text
  | number digits long => if long then digits ++ "L" else digits
  | string mark quote content => mark.text ++ quote.text ++ content ++ quote.text
  | dollarString tag content =>
      let delimiter := "$" ++ tag.getD "" ++ "$"
      delimiter ++ content ++ delimiter
  | gap g => g.text
  | symbol s => s.text
  | operator text => text
  | placeholder text => text
  | character c => c.toString

/-- Whether a token only stands between others. -/
def isGap : Token → Bool
  | gap _ => true
  | _ => false

end Token

end TypedSql
