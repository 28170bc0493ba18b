import TypedSql.Text.Shown

/-!
# Mismatches

How a value that was read differs from the record it was read for. The data formats share these
causes and their wording; each adds the place in its own way.
-/

namespace TypedSql

/-- The kind of value that was found. -/
inductive Found
  | null
  | flag (value : Bool)
  | integer (value : Int)
  | decimal (shown : String)
  | text (value : String)
  | list
  | map
  deriving DecidableEq, Repr, Inhabited

/-- A value as messages name it. -/
def Found.name : Found → String
  | null => "null"
  | flag value => s!"boolean `{value}`"
  | integer value => s!"integer `{value}`"
  | decimal shown => s!"floating point `{shown}`"
  | text value => "string " ++ Text.shown value
  | list => "sequence"
  | map => "map"

/-- Why a value does not fit. `expected` says in words what would have fitted. -/
inductive Mismatch
  | wrongType (found : Found) (expected : String)
  | wrongValue (found : Found) (expected : String)
  | wrongLength (length : Nat) (expected : String)
  | unknownVariant (variant : String) (variants : List String)
  | missingField (field : String)
  | duplicateField (field : String)
  | noVariant (type : String)
  deriving DecidableEq, Repr, Inhabited

/-- A list of names as messages offer them. -/
def offered (names : List String) : String :=
  match names with
  | [] => "there are no variants"
  | [name] => s!"expected `{name}`"
  | [first, second] => s!"expected `{first}` or `{second}`"
  | names => "expected one of " ++ ", ".intercalate (names.map fun name => s!"`{name}`")

/-- The wording of a mismatch. -/
def Mismatch.message : Mismatch → String
  | wrongType found expected => s!"invalid type: {found.name}, expected {expected}"
  | wrongValue found expected => s!"invalid value: {found.name}, expected {expected}"
  | wrongLength length expected => s!"invalid length {length}, expected {expected}"
  | unknownVariant variant variants => s!"unknown variant `{variant}`, {offered variants}"
  | missingField field => s!"missing field `{field}`"
  | duplicateField field => s!"duplicate field `{field}`"
  | noVariant type => s!"data did not match any variant of untagged enum {type}"

end TypedSql
