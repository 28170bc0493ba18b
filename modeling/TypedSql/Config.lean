import TypedSql.Bindings
import TypedSql.Dialect
import TypedSql.Path

/-!
# Configuration

Where a project keeps its schema and its SQL files, the dialect they are written in, and the names
used in their bindings.
-/

namespace TypedSql

/-- The configuration of a project. Relative paths are below `root`. Without an output directory
each declaration goes next to its SQL file. -/
structure Config where
  dialect : Dialect
  schema : Path
  sources : List Path
  outDir : Option Path
  bindings : InterfaceNames
  root : Path
  deriving DecidableEq, Repr, Inhabited

namespace Config

/-- The configuration of a project that says nothing about itself. -/
def standard (root : Path) : Config :=
  ⟨.postgres, ⟨"schema.json"⟩, [⟨"."⟩], none, .standard, root⟩

/-- A path of the project. -/
def resolve (c : Config) (p : Path) : Path := c.root.join p

/-- The file that holds the schema. -/
def schemaPath (c : Config) : Path := c.resolve c.schema

end Config

end TypedSql
