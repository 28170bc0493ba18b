import TypedSql.Config
import TypedSql.Contract
import TypedSql.Diagnostic
import TypedSql.Json.Codec
import TypedSql.Report
import TypedSql.Schema

/-!
# The JSON forms of the records

Codecs of everything that is kept or exchanged as JSON. The keys and their order are those in which
the records are written.
-/

namespace TypedSql

open Json
open Json.Codec

/-- Natural numbers of sixty-four bits. -/
def sizeCodec : Codec Nat := count (Nat.pow 2 64 - 1) "usize"

/-- Natural numbers of thirty-two bits. -/
def wordCodec : Codec Nat := count (Nat.pow 2 32 - 1) "u32"

/-! ## Diagnostics -/

/-- Codes are written as their stable names. -/
def DiagnosticCode.codec : Codec DiagnosticCode := choice all name

/-- Severities are written as their names. -/
def Severity.codec : Codec Severity := choice all name

/-- Places; an unknown line or column is written as null. -/
def Location.codec : Codec Location :=
  (record "Location" <|
    .cons (required "file" .text) <|
    .cons (nullable "line" sizeCodec) <|
    .cons (nullable "column" sizeCodec) .nil).map
    (fun (file, line, column, ()) => ⟨file, line, column⟩)
    (fun l => (l.file, l.line, l.column, ()))

/-- Diagnostics; an unknown place is left out. -/
def Diagnostic.codec : Codec Diagnostic :=
  (record "Diagnostic" <|
    .cons (required "code" DiagnosticCode.codec) <|
    .cons (required "severity" Severity.codec) <|
    .cons (required "message" .text) <|
    .cons (omittable "location" Location.codec) .nil).map
    (fun (code, severity, message, location, ()) => ⟨code, severity, message, location⟩)
    (fun d => (d.code, d.severity, d.message, d.location, ()))

/-! ## Contracts -/

/-- Statement kinds are written as their names. -/
def StatementKind.codec : Codec StatementKind := choice all name

/-- Field kinds are written as their names. -/
def FieldKind.codec : Codec FieldKind := choice all name

/-- Returned items; a missing alias is written as null. -/
def Field.codec : Codec Field :=
  (record "Field" <|
    .cons (required "kind" FieldKind.codec) <|
    .cons (required "name" .text) <|
    .cons (nullable "alias" .text) .nil).map
    (fun (kind, name, aliasName, ()) => ⟨kind, name, aliasName⟩)
    (fun f => (f.kind, f.name, f.aliasName, ()))

/-- References to tables; a missing alias is written as null. -/
def Relation.codec : Codec Relation :=
  (record "Relation" <|
    .cons (required "name" .text) <|
    .cons (nullable "alias" .text) .nil).map
    (fun (name, aliasName, ()) => ⟨name, aliasName⟩)
    (fun r => (r.name, r.aliasName, ()))

/-- Statement shapes. -/
def StatementShape.codec : Codec StatementShape :=
  (record "NormalizedStatement" <|
    .cons (required "kind" StatementKind.codec) <|
    .cons (required "fields" Field.codec.list) <|
    .cons (required "relations" Relation.codec.list) .nil).map
    (fun (kind, fields, relations, ()) => ⟨kind, fields, relations⟩)
    (fun s => (s.kind, s.fields, s.relations, ()))

/-- Parameters. -/
def InputParameter.codec : Codec InputParameter :=
  (record "InputParameter" <|
    .cons (required "name" .text) <|
    .cons (required "type" .text) <|
    .cons (required "array" .flag) <|
    .cons (required "nullable" .flag) .nil).map
    (fun (name, type, array, nullable, ()) => ⟨name, type, array, nullable⟩)
    (fun i => (i.name, i.typeName, i.array, i.nullable, ()))

/-- Returned columns; a missing alias is left out. -/
def OutputField.codec : Codec OutputField :=
  (record "OutputField" <|
    .cons (required "name" .text) <|
    .cons (required "relation" .text) <|
    .cons (required "type" .text) <|
    .cons (omittable "alias" .text) <|
    .cons (defaulted "nullable" .flag false) <|
    .cons (defaulted "array" .flag false) .nil).map
    (fun (name, relation, type, aliasName, nullable, array, ()) =>
      ⟨name, relation, type, aliasName, nullable, array⟩)
    (fun o => (o.name, o.relation, o.typeName, o.aliasName, o.nullable, o.array, ()))

/-- Contracts; an empty list of diagnostics is left out. -/
def Contract.codec : Codec Contract :=
  (record "AnalyzedStatement" <|
    .cons (required "kind" StatementKind.codec) <|
    .cons (required "inputs" InputParameter.codec.list) <|
    .cons (required "outputs" OutputField.codec.list) <|
    .cons ⟨"diagnostics", Diagnostic.codec.list, .anywhere [], List.isEmpty⟩ .nil).map
    (fun (kind, inputs, outputs, diagnostics, ()) => ⟨kind, inputs, outputs, diagnostics⟩)
    (fun c => (c.kind, c.inputs, c.outputs, c.diagnostics, ()))

/-! ## Schemas, configuration and reports -/

/-- Column types. -/
def ColumnType.codec : Codec ColumnType :=
  (record "SchemaField" <|
    .cons (required "type" .text) <|
    .cons (defaulted "nullable" .flag false) <|
    .cons (defaulted "array" .flag false) .nil).map
    (fun (type, nullable, array, ()) => ⟨type, nullable, array⟩)
    (fun c => (c.typeName, c.nullable, c.array, ()))

/-- Paths are written as texts. -/
def Path.codec : Codec Path := (textNamed "path string").map Path.mk Path.text

/-- Interface names. -/
def InterfaceNames.codec : Codec InterfaceNames :=
  (record "BindingsConfig" <|
    .cons (defaulted "input_interface" .text InterfaceNames.standard.input) <|
    .cons (defaulted "result_interface" .text InterfaceNames.standard.result) .nil).map
    (fun (input, result, ()) => ⟨input, result⟩)
    (fun n => (n.input, n.result, ()))

/-- Configurations. The root of the project is not kept. -/
def Config.codec : Codec Config :=
  let standard := Config.standard ⟨""⟩
  (record "Config" <|
    .cons (defaulted "dialect" (choice Dialect.all Dialect.name) standard.dialect) <|
    .cons (defaulted "schema" Path.codec standard.schema) <|
    .cons (defaulted "sources" Path.codec.list standard.sources) <|
    .cons (omittable "out_dir" Path.codec) <|
    .cons (defaulted "bindings" InterfaceNames.codec standard.bindings) .nil).map
    (fun (dialect, schema, sources, outDir, bindings, ()) =>
      ⟨dialect, schema, sources, outDir, bindings, standard.root⟩)
    (fun c => (c.dialect, c.schema, c.sources, c.outDir, c.bindings, ()))

/-- Counts of a run. -/
def Summary.codec : Codec Summary :=
  (record "ReportSummary" <|
    .cons (required "errors" sizeCodec) <|
    .cons (required "warnings" sizeCodec) <|
    .cons (required "info" sizeCodec) <|
    .cons (required "files_analyzed" sizeCodec) <|
    .cons (required "declarations_written" sizeCodec) .nil).map
    (fun (errors, warnings, info, filesAnalyzed, declarationsWritten, ()) =>
      ⟨errors, warnings, info, filesAnalyzed, declarationsWritten⟩)
    (fun s => (s.errors, s.warnings, s.info, s.filesAnalyzed, s.declarationsWritten, ()))

/-- Reports. -/
def Report.codec : Codec Report :=
  (record "Report" <|
    .cons (required "version" wordCodec) <|
    .cons (required "generated_at" .text) <|
    .cons (required "summary" Summary.codec) <|
    .cons (required "diagnostics" Diagnostic.codec.list) .nil).map
    (fun (version, generatedAt, summary, diagnostics, ()) =>
      ⟨version, generatedAt, summary, diagnostics⟩)
    (fun r => (r.version, r.generatedAt, r.summary, r.diagnostics, ()))

/-- The text of a report as it is kept. -/
def Report.text (r : Report) : String := (Report.codec.toJson r).pretty

end TypedSql
