/-!
# TOML documents

The items of a TOML document with the stretches of text they were read from. A place in a text is
kept as what is left of the text from there on, so that a reader needs nothing but its rest.
-/

namespace TypedSql.Toml

/-- A stretch of a text: what is left from its first character on, and what is left after it. -/
structure Span where
  start : List Char
  stop : List Char
  deriving DecidableEq, Repr, Inhabited

/-- A key with its place. -/
structure Key where
  name : String
  span : Span
  deriving DecidableEq, Repr, Inhabited

/-- How a table came to be: by a header of its own or between braces, as a step in the header of
another table, or as a step in a dotted key. Only a defined table is closed to later additions. -/
inductive TableKind
  | defined
  | implied
  | dotted
  deriving DecidableEq, Repr, Inhabited

/-- An item of a document. A table between braces is a value and cannot be extended by headers; a
table with a header, or one that is implied by one, is not a value. A table that is only implied has
no stretch of its own. A decimal holds the text in which messages show it. -/
inductive Item
  | text (value : String) (span : Span)
  | integer (value : Int) (span : Span)
  | decimal (shown : String) (span : Span)
  | flag (value : Bool) (span : Span)
  | dateTime (span : Span)
  | list (items : List Item) (span : Span)
  | braced (kind : TableKind) (entries : List (Key × Item)) (span : Option Span)
  | table (kind : TableKind) (entries : List (Key × Item)) (span : Option Span)
  | tables (items : List Item) (span : Option Span)
  deriving Inhabited

/-- The name of an item's type. -/
def Item.typeName : Item → String
  | text .. => "string"
  | integer .. => "integer"
  | decimal .. => "float"
  | flag .. => "boolean"
  | dateTime .. => "datetime"
  | list .. => "array"
  | braced .. => "inline table"
  | table .. => "table"
  | tables .. => "array of tables"

/-- The stretch that an item was read from. -/
def Item.span? : Item → Option Span
  | text _ span | integer _ span | decimal _ span | flag _ span | dateTime span => some span
  | list _ span => some span
  | braced _ _ span | table _ _ span | tables _ span => span

/-- The entries of a table with its kind and its stretch. -/
structure Table where
  kind : TableKind
  entries : List (Key × Item)
  span : Option Span
  deriving Inhabited

end TypedSql.Toml
