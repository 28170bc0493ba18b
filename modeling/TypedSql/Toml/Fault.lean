import TypedSql.Text.Bytes
import TypedSql.Toml

/-!
# Faults of a TOML text

Why a TOML text could not be read, and the excerpt of the text under which an error is shown.
-/

namespace TypedSql.Toml

/-- What is wrong with a text whose form is right. -/
inductive Clash
  | repeatedKey (key : String)
  | repeatedIn (key : String) (table : List String)
  | extendsValue (path : List String) (type : String)
  | outOfRange
  | tooLarge
  | tooSmall
  | tooDeep
  deriving DecidableEq, Repr, Inhabited

/-- The wording of a clash. -/
def Clash.message : Clash → String
  | repeatedKey key => s!"duplicate key `{key}`"
  | repeatedIn key [] => s!"duplicate key `{key}` in document root"
  | repeatedIn key table =>
      let path := ".".intercalate table
      s!"duplicate key `{key}` in table `{path}`"
  | extendsValue path type =>
      let path := ".".intercalate path
      s!"dotted key `{path}` attempted to extend non-table type ({type})"
  | outOfRange => "value is out of range"
  | tooLarge => "number too large to fit in target type"
  | tooSmall => "number too small to fit in target type"
  | tooDeep => "recursion limit exceeded"

/-- Why a text could not be read. `final` tells that no other reading may be tried. The label names
the innermost part that was being read, and `expected` what could have stood at the place. -/
structure Fault where
  rest : List Char
  final : Bool
  label : Option String
  expected : List String
  clash : Option Clash
  deriving Inhabited

namespace Fault

/-- A fault at a place that says nothing else. -/
def bare (rest : List Char) : Fault := ⟨rest, false, none, [], none⟩

/-- A clash at a place. -/
def ofClash (rest : List Char) (clash : Clash) : Fault := ⟨rest, false, none, [], some clash⟩

/-- The wording of a fault: its parts on lines of their own. -/
def message (f : Fault) : String :=
  let label := match f.label with
    | some label => s!"invalid {label}"
    | none => ""
  let expected := if f.expected.isEmpty then "" else "expected " ++ ", ".intercalate f.expected
  let lead := match f.label, f.expected with
    | some _, _ :: _ => label ++ "\n" ++ expected
    | _, _ => label ++ expected
  match f.clash with
  | none => lead
  | some clash =>
      if f.label.isSome && f.expected.isEmpty then lead ++ "\n" ++ clash.message
      else lead ++ clash.message

end Fault

/-! ## Excerpts -/

open Text (byteCount)

/-- The line and the column, from zero, of the character that holds a byte. Columns count characters
if the byte is the last of its character, else they count bytes. `bytes` and `chars` tell how far
into its line the text starts. -/
def placeOf (line bytes chars : Nat) : List Char → Nat → Nat × Nat
  | [], byte => (line, chars + byte)
  | c :: rest, byte =>
      if byte < c.utf8Size then
        (line, if byte + 1 = c.utf8Size then chars else bytes + byte)
      else if c = '\n' then placeOf (line + 1) 0 0 rest (byte - 1)
      else placeOf line (bytes + c.utf8Size) (chars + 1) rest (byte - c.utf8Size)

/-- The line and the column, from zero, of a byte. The end of a text lies one after its last
character. -/
def place (text : List Char) (byte : Nat) : Nat × Nat :=
  match byteCount text with
  | 0 => (0, byte)
  | last + 1 =>
      let (line, column) := placeOf 0 0 0 text (min byte last)
      (line, column + (byte - min byte last))

/-- The lines of a text. -/
def lines : List Char → List (List Char)
  | [] => [[]]
  | c :: rest =>
      if c = '\n' then [] :: lines rest
      else
        match lines rest with
        | [] => [[c]]
        | line :: more => (c :: line) :: more

/-- An error message below the line it is about, with the stretch marked. The marks stay within the
line; there is one at least. -/
def excerpt (text : List Char) (span : Span) (message : String) : String :=
  let start := byteCount text - byteCount span.start
  let stop := byteCount text - byteCount span.stop
  let (line, column) := place text start
  let content := (lines text).getD line []
  let marks := max 1 (min (stop - start) (byteCount content - column))
  let number := toString (line + 1)
  let gutter := String.ofList (List.replicate (number.length + 1) ' ')
  let indent := String.ofList (List.replicate (column + 1) ' ')
  let carets := String.ofList (List.replicate marks '^')
  s!"TOML parse error at line {number}, column {column + 1}\n" ++
    gutter ++ "|\n" ++ number ++ " | " ++ String.ofList content ++ "\n" ++
    gutter ++ "|" ++ indent ++ carets ++ "\n" ++ message ++ "\n"

/-- A fault below the line it is about, with its character marked. -/
def Fault.report (text : List Char) (f : Fault) : String :=
  excerpt text ⟨f.rest, f.rest.drop 1⟩ f.message

end TypedSql.Toml
