/-!
# Type texts

How a declared type is written once it is known whether it is an array and whether it may be null.
-/

namespace TypedSql.TypeText

/-- The mark of an array type. -/
def arrayMark : String := "[]"

/-- The array of a type. A type text with a space in it is put in parentheses first. -/
def arrayOf (typeName : String) : String :=
  if typeName.contains ' ' then "(" ++ typeName ++ ")" ++ arrayMark else typeName ++ arrayMark

/-- The text of a type: the array of it where asked for, and then the union with null where asked
for. -/
def render (typeName : String) (array nullable : Bool) : String :=
  let base := if array then arrayOf typeName else typeName
  if nullable then base ++ " | null" else base

end TypedSql.TypeText
