import TypedSql.FrontMatter
import TypedSql.Grammar
import TypedSql.Path
import TypedSql.Placeholder
import TypedSql.Resolve
import TypedSql.Shape

/-!
# Analysis

From the text of a SQL file to the contract of its statements: the front matter is split off, the
body is parsed, and each statement's shape is resolved against the schema. `analyze` is about the
first statement, `analyzeAll` about every one.
-/

namespace TypedSql

/-- Why a text cannot be parsed, with the text and the file that it was read from. -/
structure ParseFailure where
  sql : String
  error : Grammar.SyntaxError
  file : Option Path
  deriving Repr, Inhabited

/-- Why a file has no contract. -/
inductive AnalysisError
  | syntaxError (e : ParseFailure)
  | unsupportedStatement (kind sql : String)
  | unknownRelation (relation : String)
  | noStatement
  deriving Repr, Inhabited

namespace AnalysisError

/-- The sentence for a failure. -/
def message : AnalysisError → String
  | syntaxError e => "SQL parse error: " ++ e.error.message
  | unsupportedStatement kind sql => s!"Unsupported statement `{kind}` `{sql}`"
  | unknownRelation relation => s!"Unknown relation `{relation}`"
  | noStatement => "No statement to analyze"

/-- What a failure is about. -/
def code : AnalysisError → DiagnosticCode
  | syntaxError _ => .sqlParseError
  | unsupportedStatement _ _ => .sqlUnsupportedStatement
  | unknownRelation _ => .sqlUnknownRelation
  | noStatement => .sqlNoStatement

/-- The sentence for a failure in a report. -/
def reportMessage : AnalysisError → String
  | syntaxError e => "Failed to parse SQL: " ++ e.error.message
  | e => e.message

/-- The file that a failure to parse was found in. -/
def source? : AnalysisError → Option String
  | syntaxError e => e.file.map Path.text
  | _ => none

/-- A failure as a finding about a file: the given one, else the one it was found in. -/
def diagnostic (e : AnalysisError) (file : Option String) : Diagnostic :=
  ⟨e.code, .error, e.reportMessage, (file.or e.source?).map Location.ofFile⟩

/-- The failure of a statement that has no shape. -/
def ofUnsupported (e : Shape.Unsupported) : AnalysisError := unsupportedStatement e.kind e.sql

/-- The failure of a statement that names a relation without a declaration. -/
def ofUnknown (e : Resolve.UnknownRelation) : AnalysisError := unknownRelation e.relation

end AnalysisError

namespace Analysis

/-- The contract of one statement, without inputs; `sql` is quoted when the statement has no
shape. -/
def ofStatement (schema : Schema) (sql : String) (statement : Statement) :
    Except AnalysisError Contract := do
  let found ← (Shape.ofStatement sql statement).mapError AnalysisError.ofUnsupported
  let (outputs, findings) ←
    (Resolve.resolve schema found.shape).mapError AnalysisError.ofUnknown
  return ⟨found.shape.kind, [], outputs, found.findings ++ findings⟩

/-- The statements of a body, read from a file where one is given. -/
def statements (d : Dialect) (body : String) (file : Option Path := none) :
    Except AnalysisError (List Statement) :=
  (Grammar.parse d body).mapError fun e => .syntaxError ⟨body, e, file⟩

/-- A body without the blanks around it. -/
def trimmed (body : String) : String := String.ofList (Text.trim body.toList)

/-- The finding that statements after the first were passed over. -/
def ignored (count : Nat) : Diagnostic :=
  .ofMessage .sqlMultipleStatements .warn s!"Ignored {count} statement(s) after the first"

/-- The contract of the first statement of a file. Statements after it only add a warning. -/
def analyze (d : Dialect) (schema : Schema) (source : String) (file : Option Path := none) :
    Except AnalysisError Contract := do
  let parts := FrontMatter.split source
  match ← statements d parts.body file with
  | [] => throw .noStatement
  | first :: rest =>
      let contract ← ofStatement schema (trimmed parts.body) first
      let warning := if rest.isEmpty then [] else [ignored rest.length]
      return { contract with
        inputs := Placeholder.inputs d parts.body parts.metadata
        diagnostics := contract.diagnostics ++ warning }

/-- The contracts of all statements of a file. Each has the inputs of the whole body. -/
def analyzeAll (d : Dialect) (schema : Schema) (source : String) (file : Option Path := none) :
    Except AnalysisError (List Contract) := do
  let parts := FrontMatter.split source
  match ← statements d parts.body file with
  | [] => throw .noStatement
  | all =>
      let inputs := Placeholder.inputs d parts.body parts.metadata
      all.mapM fun statement => do
        let contract ← ofStatement schema (trimmed parts.body) statement
        return { contract with inputs }

end Analysis

end TypedSql
