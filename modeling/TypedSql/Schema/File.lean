import TypedSql.Diagnostic
import TypedSql.Files
import TypedSql.Schema.Toml

/-!
# Schema files

A schema is read from a file; its extension tells the format.
-/

namespace TypedSql

/-- Why a schema could not be loaded. -/
inductive SchemaError
  | unreadable (path : Path) (error : FileError)
  | malformed (message : String)
  deriving DecidableEq, Repr, Inhabited

namespace SchemaError

/-- The wording of an error. -/
def message : SchemaError → String
  | unreadable path error => s!"IO error: {path.text}: {error.message}"
  | malformed message => s!"Parse error: {message}"

/-- The error as a finding about the schema file. -/
def diagnostic (e : SchemaError) (path : Path) : Diagnostic :=
  (Diagnostic.ofMessage .schemaLoadError .error e.message).locatedAt (.ofFile path.text)

end SchemaError

namespace Schema

/-- The formats of a schema. -/
inductive Format
  | json
  | toml
  deriving DecidableEq, Repr, Inhabited

/-- The format of a file: TOML where the extension says so, else JSON. -/
def Format.ofPath (p : Path) : Format :=
  if p.extension = some "toml" then .toml else .json

/-- Reads a schema from a text. -/
def ofText (format : Format) (text : String) : Except SchemaError Schema :=
  match format with
  | .json => (ofJsonText text).mapError fun e => .malformed e.message
  | .toml => (ofTomlText text).mapError .malformed

/-- Reads a schema from a file. -/
def ofFile {m : Type → Type} [Monad m] [FileAccess m] (p : Path) :
    m (Except SchemaError Schema) := do
  match ← FileAccess.read p with
  | .ok text => return ofText (.ofPath p) text
  | .error e => return .error (.unreadable p e)

end Schema

end TypedSql
