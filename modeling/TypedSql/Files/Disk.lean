import TypedSql.Files

/-!
# Files of a machine

The operations on the files of the machine that the program runs on.
-/

namespace TypedSql.Disk

/-- The number of an error of the system, which some operations give with its sign changed. -/
def systemNumber (code : UInt32) : Nat :=
  if code.toNat < Nat.pow 2 31 then code.toNat else Nat.pow 2 32 - code.toNat

/-- The refusal that an error of the system stands for. -/
def refusal (e : IO.Error) : FileError :=
  match e with
  | .noFileOrDirectory _ _ _ => .notFound
  | .alreadyExists _ _ _ => .alreadyExists
  | .permissionDenied _ code _ =>
      if systemNumber code = 13 then .permissionDenied else .other e.toString
  | .inappropriateType _ code _ =>
      if systemNumber code = 20 then .notDirectory
      else if systemNumber code = 21 then .isDirectory
      else .other e.toString
  | .invalidArgument _ code _ =>
      if systemNumber code = 36 then .nameTooLong else .other e.toString
  | _ => .other e.toString

/-- What an action gives, or why it is refused. -/
def attempt {α : Type} (p : Path) (action : IO α) : IO (Except FileError α) := do
  if p.text.isEmpty then return .error .notFound
  if p.text.toList.contains '\x00' then return .error .nulInName
  match ← action.toBaseIO with
  | .ok x => return .ok x
  | .error e => return .error (refusal e)

/-- A path from the root of the machine. -/
def located (p : Path) := (fun directory => directory / p.text) <$> IO.currentDir

/-- The text of a file. -/
def read (p : Path) : IO (Except FileError String) := do
  match ← attempt p (do IO.FS.readBinFile (← located p)) with
  | .error e => return .error e
  | .ok bytes =>
      match String.fromUTF8? bytes with
      | some text => return .ok text
      | none => return .error .notText

/-- What there is at a path; a link counts as what it leads to. -/
def kindAt (p : Path) : IO (Option IO.FS.FileType) := do
  match ← attempt p (do (← located p).metadata) with
  | .ok data => return some data.type
  | .error _ => return none

/-- The files below a directory. Links below it are not followed. -/
partial def filesInside (p : Path) : IO (List Path) := do
  match ← attempt p (do (← located p).readDir) with
  | .error _ => return []
  | .ok entries =>
      let found ← entries.toList.mapM fun entry => do
        let inside := p.join ⟨entry.fileName⟩
        match ← attempt inside (do (← located inside).symlinkMetadata) with
        | .error _ => pure []
        | .ok data =>
            match data.type with
            | .dir => filesInside inside
            | .file => pure [inside]
            | _ => pure []
      return found.flatten

/-- The file at a path, or the files below it. -/
def filesBelow (p : Path) : IO (List Path) := do
  match ← kindAt p with
  | some .dir => filesInside p
  | some .file => return [p]
  | _ => return []

instance : FileAccess IO where
  workingDirectory := return ⟨(← IO.currentDir).toString⟩
  read := read
  write p text := attempt p (do IO.FS.writeFile (← located p) text)
  makeDirectory p := attempt p (do IO.FS.createDir (← located p))
  isDirectory p := return (← kindAt p) == some .dir
  isPresent p := return (← kindAt p).isSome
  filesBelow := filesBelow

end TypedSql.Disk
