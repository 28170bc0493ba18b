import TypedSql.Arguments
import TypedSql.Config.File
import TypedSql.Generate
import TypedSql.Schema.File

/-!
# The program

What the commands do: generate the declarations of all SQL files, print the contract of one, or
write a first configuration.
-/

namespace TypedSql.Program

variable {m : Type → Type} [Monad m] [FileAccess m]

/-- What a command leaves to the one who called it: the lines on both streams and its exit code. -/
structure Transcript where
  output : List String
  errors : List String
  exitCode : Nat
  deriving DecidableEq, Repr, Inhabited

/-- Lines as a text. -/
def textOf (lines : List String) : String := String.join (lines.map (· ++ "\n"))

/-- Why a command gave up, with what caused it, if that is known. -/
structure Failure where
  message : String
  cause : Option String
  deriving DecidableEq, Repr, Inhabited

/-- A text with every line indented. -/
def indented (s : String) : String :=
  String.ofList <| "    ".toList ++ s.toList.flatMap fun c =>
    if c = '\n' then "\n    ".toList else [c]

/-- A failure as the reader is told of it. -/
def Failure.text (f : Failure) : String :=
  let cause := match f.cause with
    | none => ""
    | some cause => "\n\nCaused by:\n" ++ indented cause
  "Error: " ++ f.message ++ cause

/-- A step of a command: it writes lines for the reader, and the command ends where it fails. -/
abbrev Step (m : Type → Type) := ExceptT Failure (StateT Transcript m)

/-- Adds lines to the output. -/
def print (lines : List String) : Step m Unit :=
  modify fun t => { t with output := t.output ++ lines }

/-- Adds lines about the run. -/
def tell (lines : List String) : Step m Unit :=
  modify fun t => { t with errors := t.errors ++ lines }

/-- Sets the exit code. -/
def exit (code : Nat) : Step m Unit :=
  modify fun t => { t with exitCode := code }

/-- The value of a result, or the failure that its error means. -/
def orFail {ε α : Type} (failure : ε → Failure) : Except ε α → Step m α
  | .ok x => return x
  | .error e => throw (failure e)

/-- The file in which a project keeps its configuration. -/
def configFile : Path := ⟨"requel.toml"⟩

/-- The name of a dialect for the reader. -/
def dialectTitle : Dialect → String
  | .postgres => "Postgres"
  | .mysql => "MySql"
  | .sqlite => "Sqlite"
  | .bigquery => "BigQuery"
  | .ansi => "Ansi"

/-- The configuration of a run: from the file that is asked for, else from the one in the working
directory, else the standard one. -/
def loadConfig (path : Option Path) (verbose : Bool) : Step m Config := do
  let c ← match path with
    | some p =>
        orFail (fun e => ⟨s!"Failed to load config {p.text}", some e.message⟩) (← Config.ofFile p)
    | none =>
        if ← FileAccess.isPresent configFile then
          orFail (fun e => ⟨e.message, none⟩) (← Config.ofFile configFile)
        else do
          if verbose then tell ["No config file found, using defaults"]
          pure (.standard (← FileAccess.workingDirectory))
  let c := { c with root := ← FileAccess.absolute c.root }
  if verbose then tell [s!"Using dialect: {dialectTitle c.dialect}"]
  return c

/-- The schema file of a run: the one that is asked for, else the configured one. -/
def schemaPath (c : Config) : Option Path → Step m Path
  | some p => FileAccess.absolute p
  | none => return c.schemaPath

/-- Saves a report if that is asked for. -/
def saveReport (r : Report) : Option Path → Step m Unit
  | none => return
  | some p => do
      orFail (fun e => ⟨FileAction.saveReport.failure p, some e.message⟩) (← r.save p)
      tell [s!"Report saved to: {p.text}"]

/-- The paths of a list that do not depend on the working directory. -/
def absoluteAll (paths : List Path) : Step m (List Path) :=
  paths.mapM fun p => FileAccess.absolute p

/-- Generates declarations for all files below the given paths, or else the configured ones. -/
def generate (c : Config) (time : String) (paths : List Path) (schema outDir report : Option Path)
    (verbose : Bool) : Step m Unit := do
  let schemaPath ← schemaPath c schema
  match ← Schema.ofFile schemaPath with
  | .error e =>
      let d := e.diagnostic schemaPath
      tell [s!"✗ {d.text}"]
      exit 1
      saveReport ((Report.start time).add d) report
  | .ok schema =>
      if verbose then tell ["Relations: " ++ ", ".intercalate schema.tableNames]
      let roots ← if paths.isEmpty then pure (c.sources.map c.resolve) else absoluteAll paths
      let outDir ← match outDir with
        | some dir => some <$> (FileAccess.absolute dir : Step m Path)
        | none => pure (c.outDir.map c.resolve)
      let files ← Discovery.sqlFiles roots
      if verbose then tell [s!"Found {files.length} SQL file(s)"]
      let outcomes ← Generate.processFiles ⟨c.dialect, schema, c.bindings, c.root, outDir⟩ files
      let r := Generate.report time outcomes
      tell (outcomes.flatMap (Generate.Outcome.lines verbose))
      print (Generate.summaryLines r.summary (Generate.failed outcomes))
      if 0 < Generate.failed outcomes then exit 1
      saveReport r report

/-- Prints the contract of one file. -/
def inspect (c : Config) (file : Path) (schema : Option Path) : Step m Unit := do
  let schemaPath ← schemaPath c schema
  let schema ← orFail (fun e => ⟨s!"Failed to load schema {schemaPath.text}", some e.message⟩)
    (← Schema.ofFile schemaPath)
  let source ← orFail (fun e => ⟨FileAction.read.failure file, some e.message⟩)
    (← FileAccess.read file)
  let contract ← orFail (fun e => ⟨e.message, none⟩)
    (Analysis.analyze c.dialect schema source (some file))
  print [(Contract.codec.toJson contract).pretty]

/-- Writes a first configuration, where there is nothing yet. -/
def init (p : Path) : Step m Unit := do
  if ← FileAccess.isPresent p then throw ⟨s!"{p.text} already exists", none⟩
  let c := Config.standard (← FileAccess.workingDirectory)
  orFail (fun e => ⟨e.message, none⟩) (← c.save p)
  tell [s!"Created {p.text}"]

/-- Runs a command that starts at a time. -/
def run (time : String) (invocation : Invocation) : Step m Unit := do
  match invocation.command with
  | .generate paths schema outDir report =>
      let c ← loadConfig invocation.config invocation.verbose
      generate c time paths schema outDir report invocation.verbose
  | .inspect file schema =>
      let c ← loadConfig invocation.config invocation.verbose
      inspect c file schema
  | .init => init (invocation.config.getD configFile)
  | .version => print ["requel 0.1.0"]

/-- Runs the program on its arguments. -/
def main (time : String) (arguments : List String) : m Transcript := do
  match Arguments.parse arguments with
  | .error e => return ⟨[], [e.message], 2⟩
  | .ok invocation =>
      let (result, transcript) ← (run time invocation).run.run ⟨[], [], 0⟩
      match result with
      | .ok () => return transcript
      | .error failure =>
          return { transcript with errors := transcript.errors ++ [failure.text], exitCode := 1 }

end TypedSql.Program
