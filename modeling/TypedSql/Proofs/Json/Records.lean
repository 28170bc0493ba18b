import TypedSql.Json.Records
import TypedSql.Proofs.Json.Codecs

namespace TypedSql

open Json Json.Codec

/-! # Records as JSON

Every record is read back from its written form. Some of its parts may be missing: a missing alias
of a returned item or of a table and a missing line or column are written as null, while a missing
alias of a returned column, a missing place and an empty list of diagnostics are not written at all.
-/

/-! ## Numbers that are kept -/

/-- The line and the column of a place are numbers of sixty-four bits. -/
def Location.Sized (l : Location) : Prop :=
  (∀ n ∈ l.line, n < Nat.pow 2 64) ∧ ∀ n ∈ l.column, n < Nat.pow 2 64

/-- The place of a diagnostic, if it has one, is kept exactly. -/
def Diagnostic.Sized (d : Diagnostic) : Prop := ∀ l ∈ d.location, l.Sized

/-- The places of all diagnostics of a contract are kept exactly. -/
def Contract.Sized (c : Contract) : Prop := ∀ d ∈ c.diagnostics, d.Sized

/-- Sizes of 64 bits are kept. -/
theorem restores_sizeCodec {n : Nat} (h : n < Nat.pow 2 64) : sizeCodec.Restores n :=
  restores_count (Nat.le_sub_one_of_lt h) (Nat.le_refl _)

/-! ## Named values -/

/-- The code of a finding is told by its name. -/
theorem DiagnosticCode.restores (code : DiagnosticCode) : DiagnosticCode.codec.Restores code :=
  restores_choice (by cases code <;> rfl)

/-- A severity is told by its name. -/
theorem Severity.restores (severity : Severity) : Severity.codec.Restores severity :=
  restores_choice (by cases severity <;> rfl)

/-- The kind of a statement is told by its name. -/
theorem StatementKind.restores (kind : StatementKind) : StatementKind.codec.Restores kind :=
  restores_choice (by cases kind <;> rfl)

/-- The kind of a field is told by its name. -/
theorem FieldKind.restores (kind : FieldKind) : FieldKind.codec.Restores kind :=
  restores_choice (by cases kind <;> rfl)

/-! ## Records -/

/-- No text is written as null. -/
theorem text_ne_null (s : String) : Codec.text.toJson s ≠ .null := nofun

/-- A location is read back, with or without a place in its file. -/
theorem Location.restores {l : Location} (h : l.Sized) : Location.codec.Restores l := by
  refine (restores_record "Location" (by decide) ?_).map rfl
  exact ⟨restores_required "file" (restores_text l.file),
    restores_nullable "line" (fun n hn => restores_sizeCodec (h.1 n hn)) (fun _ => nofun),
    restores_nullable "column" (fun n hn => restores_sizeCodec (h.2 n hn)) (fun _ => nofun),
    trivial⟩

/-- A finding is read back, with or without a location. -/
theorem Diagnostic.restores {d : Diagnostic} (h : d.Sized) : Diagnostic.codec.Restores d := by
  refine (restores_record "Diagnostic" (by decide) ?_).map rfl
  exact ⟨restores_required "code" d.code.restores,
    restores_required "severity" d.severity.restores,
    restores_required "message" (restores_text d.message),
    restores_omittable "location" (fun l hl => Location.restores (h l hl)) (fun _ => nofun),
    trivial⟩

/-- A field is read back. -/
theorem Field.restores (f : Field) : Field.codec.Restores f := by
  refine (restores_record "Field" (by decide) ?_).map rfl
  exact ⟨restores_required "kind" f.kind.restores,
    restores_required "name" (restores_text f.name),
    restores_nullable "alias" (fun s _ => restores_text s) text_ne_null, trivial⟩

/-- A relation is read back. -/
theorem Relation.restores (r : Relation) : Relation.codec.Restores r := by
  refine (restores_record "Relation" (by decide) ?_).map rfl
  exact ⟨restores_required "name" (restores_text r.name),
    restores_nullable "alias" (fun s _ => restores_text s) text_ne_null, trivial⟩

/-- The shape of a statement is read back. -/
theorem StatementShape.restores (s : StatementShape) : StatementShape.codec.Restores s := by
  refine (restores_record "NormalizedStatement" (by decide) ?_).map rfl
  exact ⟨restores_required "kind" s.kind.restores,
    restores_required "fields" (Restores.list fun f _ => f.restores),
    restores_required "relations" (Restores.list fun r _ => r.restores), trivial⟩

/-- An input is read back. -/
theorem InputParameter.restores (i : InputParameter) : InputParameter.codec.Restores i := by
  refine (restores_record "InputParameter" (by decide) ?_).map rfl
  exact ⟨restores_required "name" (restores_text i.name),
    restores_required "type" (restores_text i.typeName),
    restores_required "array" (restores_flag i.array),
    restores_required "nullable" (restores_flag i.nullable), trivial⟩

/-- An output is read back. -/
theorem OutputField.restores (o : OutputField) : OutputField.codec.Restores o := by
  refine (restores_record "OutputField" (by decide) ?_).map rfl
  exact ⟨restores_required "name" (restores_text o.name),
    restores_required "relation" (restores_text o.relation),
    restores_required "type" (restores_text o.typeName),
    restores_omittable "alias" (fun s _ => restores_text s) text_ne_null,
    restores_defaulted "nullable" false (restores_flag o.nullable),
    restores_defaulted "array" false (restores_flag o.array), trivial⟩

/-- An empty list is not written, and is what its absence stands for. -/
theorem Json.Codec.restores_listed {α : Type} {codec : Codec α} {xs : List α} (key : String)
    (h : ∀ x ∈ xs, codec.Restores x) :
    (⟨key, codec.list, .anywhere [], List.isEmpty⟩ : FieldCodec (List α)).Restores xs := by
  cases xs with
  | nil => exact rfl
  | cons x xs => exact Restores.list h

/-- A contract is read back. -/
theorem Contract.restores {c : Contract} (h : c.Sized) : Contract.codec.Restores c := by
  refine (restores_record "AnalyzedStatement" (by decide) ?_).map rfl
  exact ⟨restores_required "kind" c.kind.restores,
    restores_required "inputs" (Restores.list fun i _ => i.restores),
    restores_required "outputs" (Restores.list fun o _ => o.restores),
    restores_listed "diagnostics" fun d hd => Diagnostic.restores (h d hd), trivial⟩

/-- The type of a column is read back. -/
theorem ColumnType.restores (c : ColumnType) : ColumnType.codec.Restores c := by
  refine (restores_record "SchemaField" (by decide) ?_).map rfl
  exact ⟨restores_required "type" (restores_text c.typeName),
    restores_defaulted "nullable" false (restores_flag c.nullable),
    restores_defaulted "array" false (restores_flag c.array), trivial⟩

/-! ## Parts that may be missing -/

/-- The value of an object under a key. -/
def Json.field? (json : Json) (key : String) : Option Json :=
  match json with
  | .object entries => entries.lookup key
  | _ => none

/-- Every record is read back from its written form, as long as the lines and columns in it are
numbers of sixty-four bits. What is missing is either written as null or not written at all. -/
theorem records_read_back :
    (∀ d : Diagnostic, d.Sized →
      Diagnostic.codec.ofText (Diagnostic.codec.toJson d).compact = .ok d ∧
        (Diagnostic.codec.toJson d).field? "location" = d.location.map Location.codec.toJson) ∧
    (∀ l : Location, l.Sized →
      Location.codec.ofText (Location.codec.toJson l).compact = .ok l ∧
        (Location.codec.toJson l).field? "line" = some (l.line.elim .null .natural) ∧
        (Location.codec.toJson l).field? "column" = some (l.column.elim .null .natural)) ∧
    (∀ f : Field,
      Field.codec.ofText (Field.codec.toJson f).compact = .ok f ∧
        (Field.codec.toJson f).field? "alias" = some (f.aliasName.elim .null .text)) ∧
    (∀ r : Relation,
      Relation.codec.ofText (Relation.codec.toJson r).compact = .ok r ∧
        (Relation.codec.toJson r).field? "alias" = some (r.aliasName.elim .null .text)) ∧
    (∀ s : StatementShape,
      StatementShape.codec.ofText (StatementShape.codec.toJson s).compact = .ok s) ∧
    (∀ i : InputParameter,
      InputParameter.codec.ofText (InputParameter.codec.toJson i).compact = .ok i) ∧
    (∀ o : OutputField,
      OutputField.codec.ofText (OutputField.codec.toJson o).compact = .ok o ∧
        (OutputField.codec.toJson o).field? "alias" = o.aliasName.map .text) ∧
    ∀ c : Contract, c.Sized →
      Contract.codec.ofText (Contract.codec.toJson c).compact = .ok c ∧
        (Contract.codec.toJson c).field? "diagnostics" =
          if c.diagnostics = [] then none
          else some (.list (c.diagnostics.map Diagnostic.codec.toJson)) := by
  refine ⟨?diagnostic, ?location, ?field, ?relation, ?shape, ?input, ?output, ?contract⟩
  case diagnostic =>
    rintro ⟨code, severity, message, location⟩ h
    exact ⟨(Diagnostic.restores h).ofText .compact, by cases location <;> rfl⟩
  case location =>
    rintro ⟨file, line, column⟩ h
    exact ⟨(Location.restores h).ofText .compact, by cases line <;> rfl, by cases column <;> rfl⟩
  case field =>
    rintro ⟨kind, name, aliasName⟩
    exact ⟨(Field.restores _).ofText .compact, by cases aliasName <;> rfl⟩
  case relation =>
    rintro ⟨name, aliasName⟩
    exact ⟨(Relation.restores _).ofText .compact, by cases aliasName <;> rfl⟩
  case shape => exact fun s => s.restores.ofText .compact
  case input => exact fun i => i.restores.ofText .compact
  case output =>
    rintro ⟨name, relation, type, aliasName, nullable, array⟩
    exact ⟨(OutputField.restores _).ofText .compact, by cases aliasName <;> rfl⟩
  case contract =>
    rintro ⟨kind, inputs, outputs, diagnostics⟩ h
    exact ⟨(Contract.restores h).ofText .compact, by cases diagnostics <;> rfl⟩

example : (Relation.codec.toJson ⟨"products", none⟩).compact =
    "\x7b\"name\":\"products\",\"alias\":null\x7d" := by
  decide

/-- A contract with a finding whose line is known and whose column is not. -/
theorem records_read_back_warning :
    let l : Location := ⟨"db/products.sql", some 4, none⟩
    let d : Diagnostic := ⟨.sqlUnknownColumn, .warn, "Unknown column \"sku\"", some l⟩
    let c : Contract := ⟨.select, [], [⟨"id", "products", "number", none, false, true⟩], [d]⟩
    (l.Sized ∧ d.Sized ∧ c.Sized) ∧
      Location.codec.ofText (Location.codec.toJson l).compact = .ok l ∧
      Diagnostic.codec.ofText (Diagnostic.codec.toJson d).compact = .ok d ∧
      Contract.codec.ofText (Contract.codec.toJson c).compact = .ok c := by
  intro l d c
  have hl : l.Sized := by
    unfold Location.Sized
    decide
  have hd : d.Sized := by
    rintro _ ⟨⟩
    exact hl
  have hc : c.Sized := by
    intro _ h
    rw [List.mem_singleton.1 h]
    exact hd
  exact ⟨⟨hl, hd, hc⟩, (records_read_back.2.1 l hl).1, (records_read_back.1 d hd).1,
    (records_read_back.2.2.2.2.2.2.2 c hc).1⟩

end TypedSql
