import TypedSql.Path

/-!
# Module names

The name under which the bindings of a SQL file are declared, and the file that holds the
declaration.
-/

namespace TypedSql.ModuleName

/-- The named steps of a file below the project root, with slashes between them. Steps that are not
names are left out, so the name never starts with a slash and never leads upwards. Since paths are
texts, every name is taken as it is. -/
def ofPath (file root : Path) : String :=
  "/".intercalate ((file.componentsBelow root).filterMap Component.name?)

/-- A declaration goes below the output directory under the name of its module; without such a
directory it goes next to its SQL file. -/
def declarationPath (file : Path) (module : String) (outDir : Option Path) : Path :=
  match outDir with
  | some dir => dir.join ⟨module ++ ".d.ts"⟩
  | none => file.append ".d.ts"

end TypedSql.ModuleName
