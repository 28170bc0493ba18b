/-!
# Diagnostics

Findings about a file: a stable code, how bad it is, a sentence for the reader and, where known, the
place it is about.
-/

namespace TypedSql

/-- What a diagnostic is about. The names of the codes are stable. -/
inductive DiagnosticCode
  | sqlParseError
  | sqlUnsupportedStatement
  | sqlUnknownRelation
  | sqlNoStatement
  | sqlUnknownColumn
  | sqlUnsupportedShape
  | sqlMultipleStatements
  | sqlDuplicateOutput
  | schemaLoadError
  | fileIoError
  | info
  | warning
  deriving DecidableEq, Repr, Inhabited

namespace DiagnosticCode

/-- The stable name of a code. -/
def name : DiagnosticCode → String
  | sqlParseError => "SQL_PARSE_ERROR"
  | sqlUnsupportedStatement => "SQL_UNSUPPORTED_STATEMENT"
  | sqlUnknownRelation => "SQL_UNKNOWN_RELATION"
  | sqlNoStatement => "SQL_NO_STATEMENT"
  | sqlUnknownColumn => "SQL_UNKNOWN_COLUMN"
  | sqlUnsupportedShape => "SQL_UNSUPPORTED_SHAPE"
  | sqlMultipleStatements => "SQL_MULTIPLE_STATEMENTS"
  | sqlDuplicateOutput => "SQL_DUPLICATE_OUTPUT"
  | schemaLoadError => "SCHEMA_LOAD_ERROR"
  | fileIoError => "FILE_IO_ERROR"
  | info => "INFO"
  | warning => "WARNING"

/-- All codes, in the order in which error messages list them. -/
def all : List DiagnosticCode :=
  [sqlParseError, sqlUnsupportedStatement, sqlUnknownRelation, sqlNoStatement, sqlUnknownColumn,
    sqlUnsupportedShape, sqlMultipleStatements, sqlDuplicateOutput, schemaLoadError, fileIoError,
    info, warning]

end DiagnosticCode

/-- How bad a finding is. -/
inductive Severity
  | info
  | warn
  | error
  deriving DecidableEq, Repr, Inhabited

namespace Severity

/-- The name of a severity. -/
def name : Severity → String
  | info => "info"
  | warn => "warn"
  | error => "error"

/-- All severities, from the mildest to the worst. -/
def all : List Severity := [info, warn, error]

end Severity

/-- A place in a file. -/
structure Location where
  file : String
  line : Option Nat
  column : Option Nat
  deriving DecidableEq, Repr, Inhabited

namespace Location

/-- A file as a whole. -/
def ofFile (file : String) : Location := ⟨file, none, none⟩

/-- A column counts only together with its line. -/
def text : Location → String
  | ⟨file, some line, some column⟩ => s!"{file}:{line}:{column}"
  | ⟨file, some line, none⟩ => s!"{file}:{line}"
  | ⟨file, none, _⟩ => file

end Location

/-- A finding about a file. -/
structure Diagnostic where
  code : DiagnosticCode
  severity : Severity
  message : String
  location : Option Location
  deriving DecidableEq, Repr, Inhabited

namespace Diagnostic

/-- A finding without a place. -/
def ofMessage (code : DiagnosticCode) (severity : Severity) (message : String) : Diagnostic :=
  ⟨code, severity, message, none⟩

/-- The same finding at a place. -/
def locatedAt (d : Diagnostic) (location : Location) : Diagnostic :=
  { d with location := some location }

/-- One line for the reader: place, severity, code and message. -/
def text (d : Diagnostic) : String :=
  let place := match d.location with
    | some location => location.text ++ ": "
    | none => ""
  s!"{place}{d.severity.name} [{d.code.name}] {d.message}"

end Diagnostic

end TypedSql
