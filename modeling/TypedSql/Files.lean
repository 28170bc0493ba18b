import TypedSql.Path

/-!
# Access to files

What the program asks of the files around it, and why it may be refused. The program is written
against these operations only, so that it runs on the files of a machine as well as on a tree of
files in memory.
-/

namespace TypedSql

/-- Why an operation on a file is refused. -/
inductive FileError
  | notFound
  | alreadyExists
  | notDirectory
  | isDirectory
  | permissionDenied
  | nameTooLong
  | notText
  | nulInName
  | noParent
  | other (message : String)
  deriving DecidableEq, Repr, Inhabited

/-- The wording of a refusal. -/
def FileError.message : FileError → String
  | notFound => "No such file or directory (os error 2)"
  | alreadyExists => "File exists (os error 17)"
  | notDirectory => "Not a directory (os error 20)"
  | isDirectory => "Is a directory (os error 21)"
  | permissionDenied => "Permission denied (os error 13)"
  | nameTooLong => "File name too long (os error 36)"
  | notText => "stream did not contain valid UTF-8"
  | nulInName => "file name contained an unexpected NUL byte"
  | noParent => "failed to create whole tree"
  | other message => message

/-- The operations on files. Relative paths start at the working directory. -/
class FileAccess (m : Type → Type) where
  /-- The working directory. -/
  workingDirectory : m Path
  /-- The text of a file. -/
  read : Path → m (Except FileError String)
  /-- Makes a text the whole content of a file, which need not exist. -/
  write : Path → String → m (Except FileError Unit)
  /-- Makes one directory. -/
  makeDirectory : Path → m (Except FileError Unit)
  /-- Whether there is a directory at a path. -/
  isDirectory : Path → m Bool
  /-- Whether there is anything at a path. -/
  isPresent : Path → m Bool
  /-- The file at a path, or all files in the directory at a path and below, each as the path
  continued by the names that lead to it. Nothing where there is neither. -/
  filesBelow : Path → m (List Path)

namespace FileAccess

/-- The operations on files are there in every larger kind of step. -/
instance lift {m n : Type → Type} [MonadLift m n] [FileAccess m] : FileAccess n where
  workingDirectory := monadLift (workingDirectory : m Path)
  read p := monadLift (read p : m _)
  write p text := monadLift (write p text : m _)
  makeDirectory p := monadLift (makeDirectory p : m _)
  isDirectory p := monadLift (isDirectory p : m _)
  isPresent p := monadLift (isPresent p : m _)
  filesBelow p := monadLift (filesBelow p : m _)

variable {m : Type → Type} [Monad m] [FileAccess m]

/-- A path that does not depend on the working directory. -/
def absolute (p : Path) : m Path := do
  if p.isAbsolute then return p else return (← workingDirectory).join p

/-- Makes a directory and those above it that are missing; `fuel` bounds their number. -/
def makeDirectoriesWithin : Nat → Path → m (Except FileError Unit)
  | 0, _ => return .error .noParent
  | fuel + 1, p => do
      if p.text.isEmpty then return .ok ()
      match ← makeDirectory p with
      | .ok () => return .ok ()
      | .error .notFound =>
          match p.parent with
          | none => return .error .noParent
          | some parent =>
              match ← makeDirectoriesWithin fuel parent with
              | .error e => return .error e
              | .ok () => settle p (← makeDirectory p)
      | .error e => settle p (.error e)
where
  /-- A directory that is there already is as good as a new one. -/
  settle (p : Path) (result : Except FileError Unit) : m (Except FileError Unit) := do
    match result with
    | .ok () => return .ok ()
    | .error e => if ← isDirectory p then return .ok () else return .error e

/-- Makes a directory and those above it that are missing. Each has a shorter path. -/
def makeDirectories (p : Path) : m (Except FileError Unit) :=
  makeDirectoriesWithin (p.text.length + 1) p

end FileAccess

end TypedSql
