import TypedSql.Grammar.Basic
import TypedSql.Grammar.Keyword

/-!
# Reading names

Names of columns and tables, the names given to them by an alias, and string literals that stand
where a name or a text may stand.
-/

namespace TypedSql.Grammar

/-- The name that a token is. A string in plain quotes may stand for a name. -/
def nameOf (token : Token) : Option Word :=
  match token with
  | .word w => some w
  | .string .plain .single content => some ⟨content, some '\x27'⟩
  | .string .plain .double content => some ⟨content, some '\x22'⟩
  | _ => none

/-- Reads a name. -/
def name : Parse Word := do
  let found ← next
  match found.bind (fun lexeme => nameOf lexeme.token) with
  | some w => return w
  | none => unexpected "identifier" found

/-- Reads the names of an object, with dots between. -/
def objectName : Parse (List Word) := rowWhile name (symbol? .dot)

/-- Whether a token comes next without a gap before it. -/
def touches (s : Symbol) : Parse Bool := return (← ahead).head?.any (·.token == .symbol s)

/-- Takes the next lexeme, be it a gap or not. -/
def nextOfAll : Parse (Option Lexeme) where
  run left := (.ok left.head?, left.tail)
  suffix := List.tail_suffix

/-- Reads the parts of a name that are joined to it by hyphens. A part may be a number; a name that
ends in one has to end the text. -/
def hyphenated : Nat → Word → Bool → Parse Word
  | 0, w, _ => return w
  | fuel + 1, w, endsInNumber => do
      if ← touches .minus then
        skip
        let found ← nextOfAll
        match tokenOf found with
        | some (.word ⟨value, none⟩) =>
            hyphenated fuel ⟨w.value ++ "-" ++ value, w.quote⟩ false
        | some (.number digits false) =>
            if digits.all Char.isDigit then
              hyphenated fuel ⟨w.value ++ "-" ++ digits, w.quote⟩ true
            else unexpected "continuation of hyphenated identifier" found
        | _ => unexpected "continuation of hyphenated identifier" found
      else if endsInNumber then
        match ← next with
        | none => return w
        | after => unexpected "whitespace following hyphenated identifier" after
      else return w

/-- Reads one part of a table name that may have hyphens. -/
def hyphenatedName : Parse Word := do
  let bare := match ← peekToken 0 with
    | some (.word w) => w.quote.isNone
    | _ => false
  let w ← name
  if bare then hyphenated ((← remaining) + 1) w false else return w

/-- The parts of names that hold dots inside. -/
def splitAtDots (names : List Word) : List Word :=
  if names.any (·.value.toList.contains '.') then
    names.flatMap fun w => (w.value.splitOn ".").map (⟨·, w.quote⟩)
  else names

/-- Reads the name of an object as the dialect writes it; a dot in a name parts it in one
dialect. -/
def objectNameIn (d : Dialect) : Parse (List Word) := do
  let names ← objectName
  match d with
  | .bigquery => return splitAtDots names
  | _ => return names

/-- Reads the name of a table as the dialect writes it after `FROM`. -/
def tableName (d : Dialect) : Parse (List Word) := do
  match d with
  | .bigquery => return splitAtDots (← rowWhile hyphenatedName (symbol? .dot))
  | _ => objectName

/-! ## Aliases -/

/-- Reads an alias, with or without the word `AS`. Without it some keywords are no alias. -/
def aliasWord? (reserved : List String) : Parse (Option Word) := do
  let explicit ← keyword? "AS"
  let found ← peek
  match tokenOf found with
  | some (.word w) =>
      if explicit || !reserved.contains w.keyword then skip; return some w
      else return none
  | some (.string .plain .single content) => skip; return some ⟨content, some '\x27'⟩
  | some (.string .plain .double content) => skip; return some ⟨content, some '\x22'⟩
  | _ => if explicit then unexpected "an identifier after AS" found else return none

/-- Reads names with commas between them in parentheses, if they are there. -/
def names? (mayBeEmpty : Bool) : Parse (List Word) := do
  if ← symbol? .leftParen then
    let names ← if mayBeEmpty then commaSeparatedOrNone name .rightParen else commaSeparated name
    expectSymbol .rightParen
    return names
  else return []

/-- Reads names with commas between them in parentheses. -/
def nameGroup : Parse (List Word) := do
  if ← atSymbol .leftParen then names? false
  else failHere "a list of columns in parentheses"

/-! ## Literals -/

/-- Reads a text: a string literal, or a word that is no keyword. -/
def stringLiteral (d : Dialect) : Parse String := do
  let found ← next
  match tokenOf found with
  | some (.word w) =>
      if Keyword.isKnown w then unexpected "literal string" found else return w.value
  | some (.string .plain .single content) => return content
  | some (.string .plain .double content) => return content
  | some (.string .unicode _ content) => return content
  | some (.string .escaped _ content) =>
      if d == .postgres || d == .ansi then return content
      else unexpected "literal string" found
  | _ => unexpected "literal string" found

/-- Reads the name of a placeholder after the symbol that marks it. -/
def placeholderAfter (mark : String) : Parse Literal := do
  let found ← next
  match tokenOf found with
  | some (.word w) => return .placeholder (mark ++ w.value)
  | some (.number digits false) => return .placeholder (mark ++ digits)
  | _ => unexpected "placeholder" found

/-- Reads a constant. -/
def constant : Parse Literal := do
  let found ← next
  match tokenOf found with
  | some (.word w) =>
      match w.keyword, w.quote with
      | "TRUE", _ => return .boolean true
      | "FALSE", _ => return .boolean false
      | "NULL", _ => return .null
      | _, some '\x22' => return .string .plain .double w.value
      | _, some _ => unexpected "A value?" found
      | _, none =>
          unexpected "a concrete value" found
  | some (.number digits long) => return .number digits long
  | some (.string mark quote content) => return .string mark quote content
  | some (.dollarString tag content) => return .dollarString tag content
  | some (.placeholder text) => return .placeholder text
  | some (.symbol .colon) => placeholderAfter ":"
  | some (.symbol .atSign) => placeholderAfter "@"
  | _ => unexpected "a value" found

/-- Reads a constant that is a number or a placeholder. -/
def numberConstant : Parse Literal := do
  let found ← peek
  match ← constant with
  | .number digits long => return .number digits long
  | .placeholder text => return .placeholder text
  | _ => unexpected "literal number" found

/-- Reads a number that may have a sign, as it is written. -/
def signedNumber : Parse String := do
  if ← symbol? .plus then return "+" ++ (← numberConstant).text
  else if ← symbol? .minus then return "-" ++ (← numberConstant).text
  else return (← numberConstant).text

end TypedSql.Grammar
