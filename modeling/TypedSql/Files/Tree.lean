import TypedSql.Files
import TypedSql.Keyed
import TypedSql.Text.Bytes

/-!
# Files in memory

A tree of directories and files as a map from the names that lead to them. Paths are followed step
by step, as the operations on real files follow them: a step out of anything but a directory is
refused, whatever the step is.
-/

namespace TypedSql

/-- What there is under a name. A file either holds a text or something that is no text. -/
inductive FileNode
  | directory
  | file (text : String)
  | noText
  deriving DecidableEq, Repr, Inhabited

/-- Directories and files by the names that lead to them from the top, which itself is always there,
with the names that lead to the working directory. -/
structure FileTree where
  nodes : List (List String × FileNode)
  workingDirectory : List String
  deriving DecidableEq, Repr, Inhabited

namespace FileTree

/-- What there is under some names. -/
def node? (t : FileTree) (names : List String) : Option FileNode :=
  if names = [] then some .directory else t.nodes.lookup names

/-- Stores something under some names, in place of what was there. -/
def put (t : FileTree) (names : List String) (node : FileNode) : FileTree :=
  { t with nodes := (names, node) :: t.nodes.filter fun entry => entry.1 != names }

/-- The longest name of a file in bytes. -/
def maxName : Nat := 255

/-- Follows the steps of a path from a place. The last step may lead to nothing. -/
def follow (t : FileTree) : List (List Char) → List String → Except FileError (List String)
  | [], here => .ok here
  | step :: steps, here =>
      match t.node? here with
      | none => .error .notFound
      | some .directory =>
          if step = [] ∨ step = ['.'] then t.follow steps here
          else if step = ['.', '.'] then t.follow steps here.dropLast
          else if maxName < Text.byteCount step then .error .nameTooLong
          else t.follow steps (here ++ [String.ofList step])
      | some _ => .error .notDirectory

/-- The names that a path leads to. -/
def locate (t : FileTree) (p : Path) : Except FileError (List String) :=
  let cs := p.text.toList
  if cs.contains '\x00' then .error .nulInName
  else
    match cs with
    | [] => .error .notFound
    | '/' :: rest => t.follow (Path.cut rest) []
    | cs => t.follow (Path.cut cs) t.workingDirectory

/-- A path without slashes at its end. -/
def withoutSlashes (p : Path) : Path :=
  ⟨String.ofList (p.text.toList.reverse.dropWhile (· == '/')).reverse⟩

/-- What there is at a path, if anything. -/
def at? (t : FileTree) (p : Path) : Option FileNode :=
  match t.locate p with
  | .ok names => t.node? names
  | .error _ => none

/-- The text of a file. -/
def read (t : FileTree) (p : Path) : Except FileError String := do
  match t.node? (← t.locate p) with
  | none => .error .notFound
  | some .directory => .error .isDirectory
  | some .noText => .error .notText
  | some (.file text) => .ok text

/-- The names of a file that is to be written. A slash at the end of a path asks for a directory. -/
def target (t : FileTree) (p : Path) : Except FileError (List String) := do
  let bare := withoutSlashes p
  if bare = p then
    let names ← t.locate p
    if t.node? names = some .directory then .error .isDirectory else .ok names
  else if bare.text.isEmpty then .error .isDirectory
  else
    let _ ← t.locate bare
    .error .isDirectory

/-- Makes a text the whole content of a file. -/
def write (t : FileTree) (p : Path) (text : String) : Except FileError FileTree := do
  return t.put (← t.target p) (.file text)

/-- Makes a directory. -/
def makeDirectory (t : FileTree) (p : Path) : Except FileError FileTree := do
  let bare := withoutSlashes p
  let names ← if bare.text.isEmpty then t.locate p else t.locate bare
  if (t.node? names).isSome then .error .alreadyExists else .ok (t.put names .directory)

/-- The names of the files below some names, as they continue them. -/
def namesBelow (t : FileTree) (names : List String) : List (List String) :=
  t.nodes.filterMap fun entry =>
    if entry.2 ≠ .directory ∧ names.isPrefixOf entry.1 then some (entry.1.drop names.length)
    else none

/-- The file at a path, or all files below it. -/
def filesBelow (t : FileTree) (p : Path) : List Path :=
  match t.locate p with
  | .error _ => []
  | .ok names => (t.namesBelow names).map fun more => more.foldl (fun p name => p.join ⟨name⟩) p

/-- The working directory as a path. -/
def workingPath (t : FileTree) : Path := ⟨"/" ++ "/".intercalate t.workingDirectory⟩

/-- A change of the tree that may be refused. A refusal changes nothing. -/
def attempt (change : FileTree → Except FileError FileTree) :
    StateM FileTree (Except FileError Unit) := do
  match change (← get) with
  | .ok t =>
      set t
      return .ok ()
  | .error e => return .error e

instance : FileAccess (StateM FileTree) where
  workingDirectory := return (← get).workingPath
  read p := return (← get).read p
  write p text := attempt fun t => t.write p text
  makeDirectory p := attempt fun t => t.makeDirectory p
  isDirectory p := return (← get).at? p == some .directory
  isPresent p := return ((← get).at? p).isSome
  filesBelow p := return (← get).filesBelow p

/-- An empty tree. -/
def empty : FileTree := ⟨[], []⟩

/-- Stores something under some names, and makes the directories that lead to it. -/
def putWithDirectories (t : FileTree) (names : List String) (node : FileNode) : FileTree :=
  let parents := (List.range names.length).map names.take
  let t := parents.foldl
    (fun t parent => if (t.node? parent).isSome then t else t.put parent .directory) t
  t.put names node

end FileTree

end TypedSql
