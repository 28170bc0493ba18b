import TypedSql.Grammar.TypeName

/-!
# Reading parts of dates and intervals

The fields of a date or time, and the units that follow the value of an interval.
-/

namespace TypedSql.Grammar

/-- The fields of a date or time that have a keyword. -/
def dateFields : List String :=
  ["YEAR", "MONTH", "WEEK", "DAY", "DAYOFWEEK", "DAYOFYEAR", "DATE", "DATETIME", "HOUR", "MINUTE",
   "SECOND", "CENTURY", "DECADE", "DOY", "DOW", "EPOCH", "ISODOW", "ISOYEAR", "ISOWEEK", "JULIAN",
   "MICROSECOND", "MICROSECONDS", "MILLENIUM", "MILLENNIUM", "MILLISECOND", "MILLISECONDS",
   "NANOSECOND", "NANOSECONDS", "QUARTER", "TIME", "TIMEZONE", "TIMEZONE_ABBR", "TIMEZONE_HOUR",
   "TIMEZONE_MINUTE", "TIMEZONE_REGION"]

/-- The fields that can be the unit of an interval. -/
def intervalUnits : List String :=
  ["YEAR", "MONTH", "WEEK", "DAY", "HOUR", "MINUTE", "SECOND", "CENTURY", "DECADE", "DOW", "DOY",
   "EPOCH", "ISODOW", "ISOYEAR", "JULIAN", "MICROSECOND", "MICROSECONDS", "MILLENIUM", "MILLENNIUM",
   "MILLISECOND", "MILLISECONDS", "NANOSECOND", "NANOSECONDS", "QUARTER", "TIMEZONE",
   "TIMEZONE_HOUR", "TIMEZONE_MINUTE"]

/-- Whether the dialect knows fields of a date without a keyword. -/
def hasCustomFields (d : Dialect) : Bool := d == .postgres || d == .ansi

/-- Whether an interval needs a unit in the dialect. -/
def needsUnit (d : Dialect) : Bool := d == .mysql || d == .bigquery

/-- Reads a field of a date or time. -/
def dateField (d : Dialect) : Parse String := do
  let found ← next
  match tokenOf found with
  | some (.word w) =>
      if w.keyword == "WEEK" && (d == .bigquery || d == .ansi) then
        if ← symbol? .leftParen then
          let day ← name
          expectSymbol .rightParen
          return s!"WEEK({day.nameText})"
        else return "WEEK"
      else if dateFields.contains w.keyword then return w.keyword
      else if hasCustomFields d then return w.nameText
      else unexpected "date/time field" found
  | some (.string .plain .single content) =>
      if hasCustomFields d then return (⟨content, some '\x27'⟩ : Word).nameText
      else unexpected "date/time field" found
  | _ => unexpected "date/time field" found

/-- Reads the precisions after a unit of seconds. -/
def secondPrecision : Parse String := do
  if ← symbol? .leftParen then
    let leading ← count
    if ← symbol? .comma then
      let fraction ← count
      expectSymbol .rightParen
      return s!" ({leading}, {fraction})"
    else
      expectSymbol .rightParen
      return s!" ({leading})"
  else return ""

/-- A precision after a unit. -/
def unitPrecision : Parse String := do
  match ← precision? with
  | some n => return s!" ({n})"
  | none => return ""

/-- Reads what follows the value of an interval. -/
def intervalOf (d : Dialect) (value : Expr) : Parse Expr := do
  let written (rest : String) : Expr := .form [.text "INTERVAL ", .expr value, .text rest]
  let unit ←
    if intervalUnits.contains (← peekKeyword) then dateField d
    else if needsUnit d then refuseHere "INTERVAL requires a unit after the literal value"
    else pure ""
  if unit == "SECOND" then
    return written (" SECOND" ++ (← secondPrecision))
  else
    let precision ← unitPrecision
    let unit := if unit.isEmpty then "" else " " ++ unit
    if ← keyword? "TO" then
      let last ← dateField d
      let fraction ← if last == "SECOND" then unitPrecision else pure ""
      return written (unit ++ precision ++ " TO " ++ last ++ fraction)
    else return written (unit ++ precision)

/-- Reads the collation after an expression, if it is there. -/
def collated (d : Dialect) (e : Expr) : Parse Expr := do
  if ← keyword? "COLLATE" then
    let collation ← objectNameIn d
    return .form [.expr e, .text (" COLLATE " ++ dotted collation)]
  else return e

end TypedSql.Grammar
