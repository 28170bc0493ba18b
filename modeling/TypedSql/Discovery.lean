import TypedSql.Files

/-!
# Finding SQL files

The files for which bindings are generated: every file below one of several roots whose extension
says that it is SQL, once each and in the order of paths.
-/

namespace TypedSql.Discovery

/-- Whether the extension of a file says that it is SQL. -/
def isSql (p : Path) : Bool := p.extension == some "sql"

/-- Drops a path that takes the same steps as the one before it. -/
def dropRepeats : List Path → List Path
  | [] => []
  | [p] => [p]
  | p :: q :: rest =>
      if p.components = q.components then dropRepeats (p :: rest) else p :: dropRepeats (q :: rest)

/-- Paths in order, those that take the same steps once. -/
def inOrder (paths : List Path) : List Path :=
  dropRepeats (paths.mergeSort fun a b => !b.lt a)

/-- The SQL files below some roots. -/
def sqlFiles {m : Type → Type} [Monad m] [FileAccess m] (roots : List Path) : m (List Path) := do
  let found ← roots.mapM FileAccess.filesBelow
  return inOrder (found.flatten.filter isSql)

end TypedSql.Discovery
