import TypedSql.Analysis
import TypedSql.Bindings
import TypedSql.Discovery
import TypedSql.Json.Records
import TypedSql.ModuleName

/-!
# Generating declarations

A run takes SQL files one after another: it reads a file, analyzes it, and writes the declaration of
its bindings. Whatever happens to a file, the run goes on with the next. The report and the lines
for the reader are made from what happened to the files.
-/

namespace TypedSql

/-- What was to be done with a file when it failed. -/
inductive FileAction
  | read
  | create
  | write
  | saveReport
  deriving DecidableEq, Repr, Inhabited

/-- The sentence that tells what failed. -/
def FileAction.failure (action : FileAction) (p : Path) : String :=
  match action with
  | read => s!"Failed to read {p.text}"
  | create => s!"Failed to create {p.text}"
  | write => s!"Failed to write {p.text}"
  | saveReport => s!"Failed to save report {p.text}"

/-- An action on a file that failed. -/
structure FileFailure where
  action : FileAction
  path : Path
  error : FileError
  deriving DecidableEq, Repr, Inhabited

/-- What failed and why, on one line. -/
def FileFailure.message (f : FileFailure) : String :=
  f.action.failure f.path ++ ": " ++ f.error.message

namespace Generate

/-- What a run needs to know beside its files. -/
structure Settings where
  dialect : Dialect
  schema : Schema
  names : InterfaceNames
  root : Path
  outDir : Option Path
  deriving Inhabited

/-- Why a file has no declaration. -/
inductive Failure
  | analysis (error : AnalysisError)
  | file (failure : FileFailure)
  deriving Inhabited

/-- The wording of a failure. -/
def Failure.message : Failure → String
  | analysis error => error.message
  | file failure => failure.message

/-- The finding that a failure leaves in the report. -/
def Failure.diagnostic (module : String) : Failure → Diagnostic
  | analysis error => error.diagnostic (some module)
  | file failure =>
      (Diagnostic.ofMessage .fileIoError .error failure.message).locatedAt (.ofFile module)

/-- What happened to a file: the findings about it, or why it failed. -/
structure Outcome where
  module : String
  result : Except Failure (List Diagnostic)
  deriving Inhabited

/-- The declaration of the source text of a file, with the findings about it. -/
def ofSource (s : Settings) (file : Path) (module source : String) :
    Except AnalysisError (String × List Diagnostic) := do
  let contract ← Analysis.analyze s.dialect s.schema source (some file)
  let findings := contract.diagnostics ++ Bindings.clashes s.names contract
  return ((Bindings.declaration s.names module contract).text,
    findings.map fun d => d.locatedAt (.ofFile module))

variable {m : Type → Type} [Monad m] [FileAccess m]

/-- Writes a declaration, and makes the directories that it is to be in. -/
def writeDeclaration (p : Path) (text : String) : m (Except FileFailure Unit) := do
  let made ← match p.parent with
    | none => pure (.ok ())
    | some parent =>
        (Except.mapError fun e => ⟨.create, parent, e⟩) <$> FileAccess.makeDirectories parent
  match made with
  | .error failure => return .error failure
  | .ok () => return (← FileAccess.write p text).mapError fun e => ⟨.write, p, e⟩

/-- Takes one file. -/
def processFile (s : Settings) (file : Path) : m Outcome := do
  let module := ModuleName.ofPath file s.root
  match ← FileAccess.read file with
  | .error e => return ⟨module, .error (.file ⟨.read, file, e⟩)⟩
  | .ok source =>
      match ofSource s file module source with
      | .error e => return ⟨module, .error (.analysis e)⟩
      | .ok (text, findings) =>
          match ← writeDeclaration (ModuleName.declarationPath file module s.outDir) text with
          | .error failure => return ⟨module, .error (.file failure)⟩
          | .ok () => return ⟨module, .ok findings⟩

/-- Takes files one after another. -/
def processFiles (s : Settings) (files : List Path) : m (List Outcome) :=
  files.mapM (processFile s)

/-- The findings about a file; a failure is the only one. -/
def Outcome.diagnostics (o : Outcome) : List Diagnostic :=
  match o.result with
  | .ok findings => findings
  | .error failure => [failure.diagnostic o.module]

/-- Whether a file has a declaration. -/
def Outcome.isWritten (o : Outcome) : Bool :=
  match o.result with
  | .ok _ => true
  | .error _ => false

/-- Takes what happened to a file into a report. -/
def addOutcome (r : Report) (o : Outcome) : Report :=
  (r.addAll o.diagnostics).recordFile o.isWritten

/-- The report of a run that started at a time. -/
def report (time : String) (outcomes : List Outcome) : Report :=
  outcomes.foldl addOutcome (.start time)

/-- The number of files without a declaration. -/
def failed (outcomes : List Outcome) : Nat :=
  outcomes.countP fun o => !o.isWritten

/-- The lines about a file. A file without findings has one only if all is to be told. -/
def Outcome.lines (verbose : Bool) (o : Outcome) : List String :=
  match o.result with
  | .ok findings =>
      (if verbose then [s!"  ✓ {o.module}"] else []) ++ findings.map fun d => s!"  ⚠ {d.text}"
  | .error failure => [s!"✗ {o.module}: {failure.message}"]

/-- The counts of a run for the reader. -/
def summaryLines (summary : Summary) (failed : Nat) : List String :=
  ["", "Summary:",
    s!"  Files analyzed:       {summary.filesAnalyzed}",
    s!"  Declarations written: {summary.declarationsWritten}",
    s!"  Failed:               {failed}"] ++
    (if 0 < summary.warnings then [s!"  Warnings:             {summary.warnings}"] else []) ++ [""]

end Generate

/-- Writes a report to a file. -/
def Report.save {m : Type → Type} [FileAccess m] (r : Report) (p : Path) :
    m (Except FileError Unit) :=
  FileAccess.write p r.text

end TypedSql
