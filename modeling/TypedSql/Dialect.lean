import TypedSql.Text.CharClass

/-!
# Dialects

The SQL dialects and what each of them lets names and operators consist of.
-/

namespace TypedSql

/-- The SQL dialects that can be read. -/
inductive Dialect
  | postgres
  | mysql
  | sqlite
  | bigquery
  | ansi
  deriving DecidableEq, Repr, Inhabited

namespace Dialect

open Text

/-- The name of a dialect in configuration files. -/
def name : Dialect → String
  | postgres => "postgres"
  | mysql => "mysql"
  | sqlite => "sqlite"
  | bigquery => "bigquery"
  | ansi => "ansi"

/-- All dialects, in the order in which error messages list them. -/
def all : List Dialect := [postgres, mysql, sqlite, bigquery, ansi]

/-- The characters with which a bare name may start. -/
def isNameStart (d : Dialect) (c : Char) : Bool :=
  match d with
  | postgres => isAlphabetic c || c == '_'
  | mysql =>
      isAlphabetic c || c == '_' || c == '$' || c == '@' || (0x80 ≤ c.toNat && c.toNat ≤ 0xFFFF)
  | sqlite => c.isAlpha || c == '_' || (0x7F ≤ c.toNat && c.toNat ≤ 0xFFFF)
  | bigquery => c.isAlpha || c == '_'
  | ansi => isAlphabetic c || c == '_' || c == '#' || c == '@'

/-- The characters that may follow in a bare name. -/
def isNamePart (d : Dialect) (c : Char) : Bool :=
  d.isNameStart c || c.isDigit ||
    match d with
    | postgres => c == '$'
    | ansi => c == '$'
    | _ => false

/-- The quotes that may open a delimited name. A left bracket counts as a quote in one dialect. -/
def isNameQuote (d : Dialect) (c : Char) : Bool :=
  match d with
  | postgres => c == '\x22'
  | mysql => c == '\x60'
  | sqlite => c == '\x22' || c == '\x60' || c == '['
  | bigquery => c == '\x60'
  | ansi => c == '\x22' || c == '\x60'

/-- The characters that an operator of one's own may go on with. -/
def isOperatorPart (d : Dialect) (c : Char) : Bool :=
  match d with
  | postgres => "+-*/<>=~!@#%^&|`?".toList.contains c
  | _ => false

/-- Whether a backslash in a string escapes the next character. -/
def hasBackslashEscapes : Dialect → Bool
  | mysql | bigquery => true
  | _ => false

/-- Whether three quotes in a row open a string. -/
def hasTripleQuotes : Dialect → Bool
  | bigquery => true
  | _ => false

/-- Whether a `b` before a quote opens a byte string. -/
def hasByteStrings : Dialect → Bool
  | sqlite => false
  | _ => true

/-- Whether an `r` before a quote opens a raw string. -/
def hasRawStrings : Dialect → Bool
  | bigquery | ansi => true
  | _ => false

/-- Whether `u&` before a quote opens a string with code point escapes. -/
def hasUnicodeStrings : Dialect → Bool
  | postgres | ansi => true
  | _ => false

/-- Whether a number sign opens a comment. -/
def hasHashComments : Dialect → Bool
  | mysql | bigquery => true
  | _ => false

/-- Whether a bare name may start with digits. -/
def hasNumericNames : Dialect → Bool
  | mysql => true
  | _ => false

end Dialect

end TypedSql
