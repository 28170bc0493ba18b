import TypedSql.Config.Toml
import TypedSql.Files

/-!
# Loading and saving configurations

The directory of a configuration file is the root of its project.
-/

namespace TypedSql

/-- Why a configuration could not be loaded or saved. -/
inductive ConfigError
  | unreachable (error : FileError)
  | malformed (message : String)
  deriving DecidableEq, Repr, Inhabited

/-- The wording of an error. -/
def ConfigError.message : ConfigError → String
  | unreachable error => s!"IO error: {error.message}"
  | malformed message => s!"Parse error: {message}"

namespace Config

variable {m : Type → Type} [Monad m] [FileAccess m]

/-- Reads a configuration from a text; its project is in the working directory. -/
def load (text : String) : m (Except ConfigError Config) := do
  return (ofText (← FileAccess.workingDirectory) text).mapError .malformed

/-- Reads a configuration from a file. -/
def ofFile (p : Path) : m (Except ConfigError Config) := do
  match ← FileAccess.read p with
  | .error e => return .error (.unreachable e)
  | .ok text =>
      match ← load text with
      | .error e => return .error e
      | .ok c => return .ok { c with root := p.parent.getD c.root }

/-- Writes a configuration to a file. -/
def save (c : Config) (p : Path) : m (Except ConfigError Unit) := do
  return (← FileAccess.write p c.text).mapError .unreachable

end Config

end TypedSql
