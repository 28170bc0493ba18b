import TypedSql.Grammar.Name

/-!
# Reading type names

A type name is known by the text in which it is written out again; only two kinds have to be told
apart, intervals and types that have no meaning of their own.
-/

namespace TypedSql.Grammar

/-- The name of a type. -/
inductive TypeName
  | interval
  | custom (text : String)
  | known (text : String)
  deriving DecidableEq, Repr, Inhabited

/-- A type name written out. -/
def TypeName.text : TypeName → String
  | interval => "INTERVAL"
  | custom text => text
  | known text => text

/-- Reads a number in parentheses, if it is there. -/
def precision? : Parse (Option Nat) := do
  if ← symbol? .leftParen then
    let n ← count
    expectSymbol .rightParen
    return some n
  else return none

/-- A number in parentheses, where there is one. -/
def precisionText (n : Option Nat) : String :=
  match n with
  | some n => s!"({n})"
  | none => ""

/-- Reads a type that may have a size. -/
def sized (name : String) : Parse TypeName := return .known (name ++ precisionText (← precision?))

/-- Reads a whole number type, which may have a size and no sign. -/
def integerType (name : String) : Parse TypeName := do
  let size ← precision?
  let sign := if ← keyword? "UNSIGNED" then " UNSIGNED" else ""
  return .known (name ++ precisionText size ++ sign)

/-- Reads a type that may have a precision and a scale. -/
def exactType (name : String) : Parse TypeName := do
  if ← symbol? .leftParen then
    let precision ← count
    let scale ← if ← symbol? .comma then (fun n => s!",{n}") <$> count else pure ""
    expectSymbol .rightParen
    return .known s!"{name}({precision}{scale})"
  else return .known name

/-- Reads a type that may have a length, counted in some unit. -/
def textType (name : String) : Parse TypeName := do
  if ← symbol? .leftParen then
    let length ←
      if ← keyword? "MAX" then pure "MAX"
      else do
        let n ← count
        match ← oneOf? ["CHARACTERS", "OCTETS"] with
        | some unit => pure s!"{n} {unit}"
        | none => pure s!"{n}"
    expectSymbol .rightParen
    return .known s!"{name}({length})"
  else return .known name

/-- Reads a character type after its first word. -/
def characterType (name : String) : Parse TypeName := do
  if ← keyword? "VARYING" then textType (name ++ " VARYING")
  else if ← keywords? ["LARGE", "OBJECT"] then sized (name ++ " LARGE OBJECT")
  else textType name

/-- Reads a type of times, which may have a precision and a time zone. -/
def timeType (name : String) : Parse TypeName := do
  let precision := precisionText (← precision?)
  if ← keyword? "WITH" then
    expectKeywords ["TIME", "ZONE"]
    return .known (name ++ precision ++ " WITH TIME ZONE")
  else if ← keyword? "WITHOUT" then
    expectKeywords ["TIME", "ZONE"]
    return .known (name ++ precision ++ " WITHOUT TIME ZONE")
  else return .known (name ++ precision)

/-- A text in single quotes, as it is written. -/
def quotedValue (content : String) : String := (Literal.string .plain .single content).text

/-- Reads a value of an enumeration, which may have a number. -/
def enumValue (d : Dialect) : Parse String := do
  let value := quotedValue (← stringLiteral d)
  if ← symbol? .equal then return value ++ " = " ++ (← signedNumber)
  else return value

/-- Reads an enumeration with its values in parentheses. -/
def enumType (d : Dialect) (name : String) : Parse TypeName := do
  let values ← parens (commaSeparated (enumValue d))
  return .known (name ++ "(" ++ ", ".intercalate values ++ ")")

/-- Reads the values of a set, after its opening parenthesis and as far as the closing one. -/
def setValues : Nat → List String → Parse (List String)
  | 0, done => return done.reverse
  | fuel + 1, done => do
      let found ← next
      let some (.string .plain .single content) := tokenOf found | unexpected "a string" found
      let done := quotedValue content :: done
      let found ← next
      match tokenOf found with
      | some (.symbol .comma) => setValues fuel done
      | some (.symbol .rightParen) => return done.reverse
      | _ => unexpected ", or \x7d" found

/-- Reads a set with its values in parentheses. -/
def setType : Parse TypeName := do
  expectSymbol .leftParen
  let values ← setValues ((← remaining) + 1) []
  return .known ("SET(" ++ ", ".intercalate values ++ ")")

/-- Reads a type of times with its precision, and its time zone if there is one. -/
def zonedType (d : Dialect) : Parse TypeName := do
  expectSymbol .leftParen
  let precision ← count
  let zone ←
    if ← symbol? .comma then do pure (", '" ++ (← stringLiteral d) ++ "'")
    else pure ""
  expectSymbol .rightParen
  return .known s!"DateTime64({precision}{zone})"

/-- Reads a modifier of a type as far as the closing parenthesis. -/
def modifiers : Nat → List String → Parse (List String)
  | 0, done => return done.reverse
  | fuel + 1, done => do
      let found ← next
      match tokenOf found with
      | some (.word w) => modifiers fuel (w.text :: done)
      | some (.number digits _) => modifiers fuel (digits :: done)
      | some (.string .plain .single content) => modifiers fuel (content :: done)
      | some (.symbol .comma) => modifiers fuel done
      | some (.symbol .rightParen) => return done.reverse
      | _ => unexpected "type modifiers" found

/-- Reads a type that has no meaning of its own. -/
def customType (d : Dialect) : Parse TypeName := do
  let name := dotted (← objectNameIn d)
  if ← symbol? .leftParen then
    let modifiers ← modifiers ((← remaining) + 1) []
    if modifiers.isEmpty then return .custom name
    else return .custom (name ++ "(" ++ ", ".intercalate modifiers ++ ")")
  else return .custom name

/-- Takes the angle bracket that closes a type, unless a double bracket inside has closed it. The
result says whether a double bracket leaves one half for the type around. -/
def closeAngle (halfOpen : Bool) : Parse Bool := do
  if halfOpen then return false
  else if ← symbol? .greater then return false
  else if ← symbol? .shiftRight then return true
  else failHere ">"

/-- Reads a field of a row type, with what reads a type. Two words in a row are a name and the start
of a type. -/
def rowField (type : Parse (TypeName × Bool)) : Parse (String × Bool) := do
  let named := match ← peekToken 0, ← peekToken 1 with
    | some (.word _), some (.word _) => true
    | _, _ => false
  let label ← if named then (·.nameText ++ " ") <$> name else pure ""
  let (type, halfOpen) ← type
  return (label ++ type.text, halfOpen)

/-- Reads the fields of a row type whose keyword is at a place, after those read before. -/
def rowFieldsFrom (type : Parse (TypeName × Bool)) (position : Option Position) :
    Nat → List String → Parse (List String × Bool)
  | 0, done => return (done.reverse, false)
  | fuel + 1, done => do
      let (field, halfOpen) ← rowField type
      let done := field :: done
      if ← symbol? .comma then
        if halfOpen then throw (.refused "unmatched > in STRUCT definition" position)
        else rowFieldsFrom type position fuel done
      else return (done.reverse, halfOpen)

/-- Reads the fields of a row type in angle brackets after its keyword, which is at a place, if they
are there. -/
def rowFields (type : Parse (TypeName × Bool)) (position : Option Position) :
    Parse (List String × Bool) := do
  if ← symbol? .less then
    let (fields, halfOpen) ← rowFieldsFrom type position ((← remaining) + 1) []
    return (fields, ← closeAngle halfOpen)
  else return ([], false)

/-- A row type written out. -/
def rowText (fields : List String) : String :=
  if fields.isEmpty then "STRUCT" else "STRUCT<" ++ ", ".intercalate fields ++ ">"

/-- Reads the square brackets after a type. -/
def arrayMarks (d : Dialect) : Nat → TypeName → Parse TypeName
  | 0, type => return type
  | fuel + 1, type => do
      if ← symbol? .leftBracket then
        let size ← if d == .postgres || d == .ansi then maybe count else pure none
        expectSymbol .rightBracket
        let size := match size with | some n => toString n | none => ""
        arrayMarks d fuel (.known (type.text ++ "[" ++ size ++ "]"))
      else return type

/-- Reads a type that is known by its keyword. -/
def keywordType (d : Dialect) (word : String) : Option (Parse TypeName) :=
  match word with
  | "BOOLEAN" | "BOOL" | "REAL" | "FLOAT4" | "FLOAT64" | "FLOAT8" | "UUID" | "DATE" | "JSON"
  | "JSONB" | "REGCLASS" | "TEXT" | "TINYTEXT" | "MEDIUMTEXT" | "LONGTEXT" | "BYTEA" | "TINYBLOB"
  | "MEDIUMBLOB" | "LONGBLOB" | "INT64" | "TRIGGER" => some (pure (.known word))
  | "FLOAT32" => some (pure (.known "Float32"))
  | "INT16" => some (pure (.known "Int16"))
  | "INT32" => some (pure (.known "Int32"))
  | "INT128" => some (pure (.known "Int128"))
  | "INT256" => some (pure (.known "Int256"))
  | "UINT8" => some (pure (.known "UInt8"))
  | "UINT16" => some (pure (.known "UInt16"))
  | "UINT32" => some (pure (.known "UInt32"))
  | "UINT64" => some (pure (.known "UInt64"))
  | "UINT128" => some (pure (.known "UInt128"))
  | "UINT256" => some (pure (.known "UInt256"))
  | "DATE32" => some (pure (.known "Date32"))
  | "FLOAT" | "CLOB" | "BINARY" | "VARBINARY" | "BLOB" | "BYTES" | "DATETIME" | "STRING"
  | "TIMESTAMPTZ" | "TIMETZ" => some (sized word)
  | "TINYINT" | "INT2" | "SMALLINT" | "MEDIUMINT" | "INT" | "INT4" | "INT8" | "INTEGER"
  | "BIGINT" => some (integerType word)
  | "NUMERIC" | "DECIMAL" | "DEC" | "BIGNUMERIC" | "BIGDECIMAL" => some (exactType word)
  | "VARCHAR" | "NVARCHAR" => some (textType word)
  | "CHARACTER" | "CHAR" => some (characterType word)
  | "TIMESTAMP" | "TIME" => some (timeType word)
  | "DOUBLE" => some do
      if ← keyword? "PRECISION" then return .known "DOUBLE PRECISION" else return .known "DOUBLE"
  | "BIT" => some do
      if ← keyword? "VARYING" then sized "BIT VARYING" else sized "BIT"
  | "INTERVAL" => some (pure .interval)
  | "ENUM" | "ENUM8" | "ENUM16" => some (enumType d word)
  | "SET" => some setType
  | "DATETIME64" => some (zonedType d)
  | "FIXEDSTRING" => some ((fun n => .known s!"FixedString({n})") <$> parens count)
  | _ => none

/-- The type that a reading gives, where it leaves no half of a double angle bracket. -/
def wholeType (type : Parse (TypeName × Bool)) : Parse TypeName := do
  let (type, halfOpen) ← type
  if halfOpen then
    let found := match ← peek with
      | some lexeme => lexeme.token.text
      | none => "EOF"
    throw (.refused ("unmatched > after parsing data type " ++ type.text ++ found) none)
  else return type

/-- Reads a name with a type after it. -/
def labelledType (type : Parse (TypeName × Bool)) : Parse String := do
  let label ← name
  return label.nameText ++ " " ++ (← wholeType type).text

/-- Reads a column of a nested table. -/
def nestedColumn (d : Dialect) (type : Parse (TypeName × Bool)) : Parse String := do
  let column ← labelledType type
  match ← after? "COLLATE" (objectNameIn d) with
  | some collation => return column ++ " COLLATE " ++ dotted collation
  | none => return column

/-- Reads a type that holds other types in parentheses, where the dialect has it. -/
def holdingType (d : Dialect) (type : Parse (TypeName × Bool)) (word : String) :
    Option (Parse TypeName) :=
  let listing (opening : String) (part : Parse String) : Parse TypeName := do
    let parts ← parens (commaSeparated part)
    return .known (opening ++ "(" ++ ", ".intercalate parts ++ ")")
  match d, word with
  | .ansi, "NULLABLE" => some ((fun t => .known s!"Nullable({t.text})") <$> parens (wholeType type))
  | .ansi, "LOWCARDINALITY" =>
      some ((fun t => .known s!"LowCardinality({t.text})") <$> parens (wholeType type))
  | .ansi, "MAP" => some <| parens do
      let key ← wholeType type
      expectSymbol .comma
      return .known s!"Map({key.text}, {(← wholeType type).text})"
  | .ansi, "TUPLE" => some (listing "Tuple" (Prod.fst <$> rowField type))
  | .ansi, "NESTED" => some (listing "Nested" (nestedColumn d type))
  | .ansi, "UNION" => some (listing "UNION" (labelledType type))
  | _, _ => none

/-- Reads a type. The second result says that a double angle bracket was cut in half. -/
def typeAndHalf (d : Dialect) : Nat → Parse (TypeName × Bool)
  | 0 => throw .tooDeep
  | fuel + 1 => do
      let found ← peek
      let some ⟨.word w, position⟩ := found | failNext "a data type name"
      let (type, halfOpen) ←
        match w.keyword, (keywordType d w.keyword).orElse fun _ =>
            holdingType d (typeAndHalf d fuel) w.keyword with
        | _, some rest => do
            skip
            pure (← rest, false)
        | "ARRAY", none => do
            skip
            expectSymbol .less
            let (inside, halfOpen) ← typeAndHalf d fuel
            let halfOpen ← closeAngle halfOpen
            pure (TypeName.known ("ARRAY<" ++ inside.text ++ ">"), halfOpen)
        | "STRUCT", none => do
            if d == .bigquery || d == .ansi then
              skip
              let (fields, halfOpen) ← rowFields (typeAndHalf d fuel) (some position)
              pure (TypeName.known (rowText fields), halfOpen)
            else pure (← customType d, false)
        | _, none => do pure (← customType d, false)
      return (← arrayMarks d ((← remaining) + 1) type, halfOpen)

/-- Reads a type. -/
def typeName (d : Dialect) : Parse TypeName := do
  wholeType (typeAndHalf d ((← remaining) + 1))

end TypedSql.Grammar
