import Mathlib.Data.List.Forall2
import TypedSql.Bindings
import TypedSql.Proofs.Analysis.Statements
import TypedSql.Proofs.Placeholder.Positions

/-! # What an analysis depends on

An analysis reads a file through its body, its front matter and the schema. The front matter
decides the types of the inputs and nothing else, and of these only through what it says about the
placeholders of the body. The schema is looked at only where a relation of the statement is
declared.
-/

namespace TypedSql

/-! ## Outcomes that are alike -/

namespace Outcome

section

variable {ε α β γ δ : Type}

/-- Two outcomes are alike when both are the same failure, or both are results that are related. -/
inductive Alike (R : α → β → Prop) : Except ε α → Except ε β → Prop
  | error (e : ε) : Alike R (.error e) (.error e)
  | ok {a : α} {b : β} (h : R a b) : Alike R (.ok a) (.ok b)

namespace Alike

variable {R : α → β → Prop} {S : γ → δ → Prop}

/-- An outcome is like itself. -/
theorem refl {R : α → α → Prop} (h : ∀ a, R a a) (x : Except ε α) : Alike R x x := by
  cases x with
  | error e => exact .error e
  | ok a => exact .ok (h a)

/-- Outcomes with equal values are equal. -/
theorem eq {x y : Except ε α} (h : Alike Eq x y) : x = y := by
  cases h with
  | error e => rfl
  | ok h => rw [h]

/-- What is made of values that are alike is alike. -/
theorem map {x : Except ε α} {y : Except ε β} {f : α → γ} {g : β → δ} (h : Alike R x y)
    (hfg : ∀ a b, R a b → S (f a) (g b)) : Alike S (x.map f) (y.map g) := by
  cases h with
  | error e => exact .error e
  | ok hab => exact .ok (hfg _ _ hab)

/-- What is alike for every element of a list is alike for the list, place by place. -/
theorem mapM {as : List α} {f : α → Except ε γ} {g : α → Except ε δ}
    (h : ∀ a ∈ as, Alike S (f a) (g a)) : Alike (List.Forall₂ S) (as.mapM f) (as.mapM g) := by
  induction as with
  | nil => exact .ok .nil
  | cons a as ih =>
      have hfirst := h a List.mem_cons_self
      have hrest := ih fun a' ha' => h a' (List.mem_cons_of_mem a ha')
      rw [mapM_cons, mapM_cons]
      generalize f a = x at hfirst
      generalize g a = y at hfirst
      -- The first failure ends both, and they fail at the same element.
      cases hfirst with
      | error e => exact .error e
      | ok hab => exact hrest.map fun _ _ hall => .cons hab hall

end Alike

end

end Outcome

/-! ## Resolution -/

namespace Resolve

variable {schema schema' : Schema}

/-- The tables of relations depend on these relations of the schema only. -/
theorem tables_congr {relations : List Relation}
    (h : ∀ r ∈ relations, schema.table? r.name = schema'.table? r.name) :
    tables schema relations = tables schema' relations := by
  induction relations with
  | nil => rfl
  | cons r rest ih =>
      have hrest := ih fun r' hr' => h r' (List.mem_cons_of_mem r hr')
      rw [tables, tables, h r List.mem_cons_self, hrest]

/-- After the relations of a shape have been looked up, the schema is not looked at any more. -/
theorem resolve_congr {shape : StatementShape}
    (h : ∀ r ∈ shape.relations, schema.table? r.name = schema'.table? r.name) :
    resolve schema shape = resolve schema' shape := by
  rw [resolve, resolve, tables_congr h]

end Resolve

namespace Analysis

open Outcome

/-! ## The front matter -/

/-- Contracts that differ in the types of their inputs at most. -/
structure SameButTypes (r r' : Contract) : Prop where
  kind : r.kind = r'.kind
  outputs : r.outputs = r'.outputs
  diagnostics : r.diagnostics = r'.diagnostics
  names : r.inputs.map (·.name) = r'.inputs.map (·.name)

/-- Declarations that say the same about a parameter, be it declared under its name or under its
name with the mark of a nullable one. -/
def AgreeOn (metadata metadata' : Keyed String) (name : String) : Prop :=
  metadata.get? name = metadata'.get? name ∧
    metadata.get? (name ++ "?") = metadata'.get? (name ++ "?")

instance (metadata metadata' : Keyed String) (name : String) :
    Decidable (AgreeOn metadata metadata' name) :=
  inferInstanceAs (Decidable (_ ∧ _))

/-- The description of a parameter depends on its own entries of the front matter only. -/
theorem describe_congr {metadata metadata' : Keyed String} {name : String}
    (h : AgreeOn metadata metadata' name) :
    Placeholder.describe metadata name = Placeholder.describe metadata' name := by
  unfold Placeholder.describe
  rw [h.1, h.2]

/-- The parameters of a body are told by what is declared for its placeholders. -/
theorem inputs_congr (d : Dialect) (body : String) {metadata metadata' : Keyed String}
    (h : ∀ name ∈ Placeholder.occurrences d body, AgreeOn metadata metadata' name) :
    Placeholder.inputs d body metadata = Placeholder.inputs d body metadata' := by
  unfold Placeholder.inputs
  refine List.map_congr_left fun name hname => describe_congr (h name ?_)
  rw [Placeholder.distinct_eq_eraseDups] at hname
  exact List.mem_eraseDups.1 hname

/-- The front matter of a file decides the inputs of a contract and nothing else. -/
theorem contractOf_eq (d : Dialect) (schema : Schema) (source : String) (s : Statement) :
    contractOf d schema source s =
      (ofStatement schema (trimmed (FrontMatter.split source).body) s).map fun contract =>
        { contract with
          inputs := Placeholder.inputs d (FrontMatter.split source).body
            (FrontMatter.split source).metadata } := rfl

section

variable {d : Dialect} {schema : Schema} {source source' : String}

/-- Files with the same body have the same statements, so their analyses are alike when they make
contracts of these that are alike. -/
theorem alike_of_body {R : Contract → Contract → Prop} (file : Option Path)
    (hbody : (FrontMatter.split source).body = (FrontMatter.split source').body)
    (hcontract : ∀ s, Alike R (contractOf d schema source s) (contractOf d schema source' s))
    (hwarned : ∀ r r' warning, R r r' →
      R { r with diagnostics := r.diagnostics ++ warning }
        { r' with diagnostics := r'.diagnostics ++ warning }) :
    Alike R (analyze d schema source file) (analyze d schema source' file) ∧
      Alike (List.Forall₂ R) (analyzeAll d schema source file)
        (analyzeAll d schema source' file) := by
  have hstatements : bodyStatements d source' file = bodyStatements d source file := by
    unfold bodyStatements
    rw [hbody]
  cases hread : bodyStatements d source file with
  | error e =>
      have hread' := hstatements.trans hread
      rw [analyze_of_error hread, analyze_of_error hread', analyzeAll_of_error hread,
        analyzeAll_of_error hread']
      exact ⟨.error e, .error e⟩
  | ok all =>
      have hread' := hstatements.trans hread
      cases all with
      | nil =>
          rw [analyze_of_nil hread, analyze_of_nil hread', analyzeAll_of_nil hread,
            analyzeAll_of_nil hread']
          exact ⟨.error _, .error _⟩
      | cons first rest =>
          rw [analyze_of_cons hread, analyze_of_cons hread', analyzeAll_of_cons hread,
            analyzeAll_of_cons hread']
          constructor
          · exact (hcontract first).map fun r r' h => hwarned r r' _ h
          · exact Alike.mapM fun s _ => hcontract s

/-- Files with the same body have the same contracts, up to the types of their inputs. -/
theorem contractOf_sameButTypes (schema : Schema)
    (hbody : (FrontMatter.split source).body = (FrontMatter.split source').body) (s : Statement) :
    Alike SameButTypes (contractOf d schema source s) (contractOf d schema source' s) := by
  rw [contractOf_eq, contractOf_eq, hbody]
  refine (Alike.refl (R := Eq) (fun _ => rfl) _).map ?_
  rintro contract _ rfl
  refine ⟨rfl, rfl, rfl, ?_⟩
  show (Placeholder.inputs d _ _).map _ = (Placeholder.inputs d _ _).map _
  rw [Placeholder.names_inputs, Placeholder.names_inputs]

/-- Files with the same body that declare the same about its parameters have the same contracts. -/
theorem contractOf_congr
    (hbody : (FrontMatter.split source).body = (FrontMatter.split source').body)
    (hagree : ∀ name ∈ Placeholder.occurrences d (FrontMatter.split source).body,
      AgreeOn (FrontMatter.split source).metadata (FrontMatter.split source').metadata name)
    (s : Statement) : contractOf d schema source s = contractOf d schema source' s := by
  have hinputs := inputs_congr d (FrontMatter.split source).body hagree
  rw [contractOf_eq, contractOf_eq, hinputs, hbody]

end

/-- The front matter of a file can only retype its parameters. Two files with the same body fail
alike or have contracts that differ in the types of their inputs at most, for the first statement as
for every one; and where their front matters say the same about the placeholders of the body, under
both spellings of each, the answers are the same. -/
theorem analyze_retypes (d : Dialect) (schema : Schema) (file : Option Path)
    (source source' : String)
    (hbody : (FrontMatter.split source).body = (FrontMatter.split source').body) :
    Alike SameButTypes (analyze d schema source file) (analyze d schema source' file) ∧
      Alike (List.Forall₂ SameButTypes) (analyzeAll d schema source file)
        (analyzeAll d schema source' file) ∧
      ((∀ name ∈ Placeholder.occurrences d (FrontMatter.split source).body,
          AgreeOn (FrontMatter.split source).metadata (FrontMatter.split source').metadata name) →
        analyze d schema source file = analyze d schema source' file ∧
          analyzeAll d schema source file = analyzeAll d schema source' file) := by
  obtain ⟨hfirst, hall⟩ := alike_of_body file hbody
    (contractOf_sameButTypes schema hbody) fun r r' warning h =>
      ⟨h.kind, h.outputs, congrArg (· ++ warning) h.diagnostics, h.names⟩
  refine ⟨hfirst, hall, fun hagree => ?_⟩
  -- Now the contracts themselves are the same, and alike means equal.
  have hsame : ∀ s, Alike Eq (contractOf d schema source s) (contractOf d schema source' s) := by
    intro s
    rw [contractOf_congr hbody hagree s]
    exact .refl (fun _ => rfl) _
  obtain ⟨hfirst, hall⟩ := alike_of_body file hbody hsame
    fun r r' warning h => by rw [h]
  rw [List.forall₂_eq_eq_eq] at hall
  exact ⟨hfirst.eq, hall.eq⟩

/-- One body under three front matters: the second retypes the parameter, the third differs from the
first in what is said about another name and in the order. -/
theorem analyze_retypes_select :
    let typed := "---\nunused: string\nid: number\n---\nselect :id"
    let retyped := "---\nid?: string[]\n---\nselect :id"
    let reordered := "---\nid: number\nunused: boolean\n---\nselect :id"
    (∃ r r', analyze .postgres .empty typed = .ok r ∧ analyze .postgres .empty retyped = .ok r' ∧
      SameButTypes r r' ∧ r.inputs = [⟨"id", "number", false, false⟩] ∧
      r'.inputs = [⟨"id", "string", true, true⟩]) ∧
    analyze .postgres .empty typed = analyze .postgres .empty reordered ∧
    analyzeAll .postgres .empty typed = analyzeAll .postgres .empty reordered := by
  intro typed retyped reordered
  have hretyped : (FrontMatter.split typed).body = (FrontMatter.split retyped).body := by
    decide +kernel
  have hreordered : (FrontMatter.split typed).body = (FrontMatter.split reordered).body := by
    decide +kernel
  have hagree : ∀ name ∈ Placeholder.occurrences .postgres (FrontMatter.split typed).body,
      AgreeOn (FrontMatter.split typed).metadata (FrontMatter.split reordered).metadata name := by
    decide +kernel
  have hinputs : (analyze .postgres .empty typed).toOption.map Contract.inputs =
      some [⟨"id", "number", false, false⟩] := by
    decide +kernel
  have hinputs' : (analyze .postgres .empty retyped).toOption.map Contract.inputs =
      some [⟨"id", "string", true, true⟩] := by
    decide +kernel
  constructor
  · have halike := (analyze_retypes .postgres .empty none typed retyped hretyped).1
    generalize analyze .postgres .empty typed = x at hinputs halike
    generalize analyze .postgres .empty retyped = y at hinputs' halike
    cases halike with
    | error e => cases hinputs
    | ok h => exact ⟨_, _, rfl, rfl, h, Option.some.inj hinputs, Option.some.inj hinputs'⟩
  · exact (analyze_retypes .postgres .empty none typed reordered hreordered).2.2 hagree

/-! ## The schema -/

/-- The contract of a statement depends on its own relations of the schema only. -/
theorem ofStatement_congr {schema schema' : Schema} {sql : String} {s : Statement}
    (h : ∀ found, Shape.ofStatement sql s = .ok found →
      ∀ r ∈ found.shape.relations, schema.table? r.name = schema'.table? r.name) :
    ofStatement schema sql s = ofStatement schema' sql s := by
  unfold ofStatement
  cases hshape : Shape.ofStatement sql s with
  | error e => rfl
  | ok found =>
      have hresolve := Resolve.resolve_congr (h found hshape)
      simp only [Except.mapError, bind, Except.bind, hresolve]

/-- The names of the relations of the first statement of a file, as often as they occur in its
shape. A statement without a shape has none. -/
def referenced (d : Dialect) (source : String) (file : Option Path) : List String :=
  match bodyStatements d source file with
  | .ok (first :: _) =>
      match Shape.ofStatement (trimmed (FrontMatter.split source).body) first with
      | .ok found => found.shape.relations.map (·.name)
      | .error _ => []
  | _ => []

/-- The relations that a body refers to are those of its first statement. -/
theorem referenced_of_cons {d : Dialect} {source : String} {file : Option Path} {first : Statement}
    {rest : List Statement} {found : Shape.Found}
    (hread : bodyStatements d source file = .ok (first :: rest))
    (hshape : Shape.ofStatement (trimmed (FrontMatter.split source).body) first = .ok found) :
    referenced d source file = found.shape.relations.map (·.name) := by
  simp only [referenced, hread, hshape]

/-- An analysis depends on the schema only through the relations that the first statement names.
Under two schemas that give each of these the same columns in the same order, or declare it both or
neither, a file fails alike or has the same contract, and its declaration is printed alike. -/
theorem analyze_reads_referenced (d : Dialect) (source : String) (file : Option Path)
    (names : InterfaceNames) (module : String) (schema schema' : Schema)
    (h : ∀ name ∈ referenced d source file, schema.table? name = schema'.table? name) :
    analyze d schema source file = analyze d schema' source file ∧
      (analyze d schema source file).map (fun r => (Bindings.declaration names module r).text) =
        (analyze d schema' source file).map fun r =>
          (Bindings.declaration names module r).text := by
  have hanalysis : analyze d schema source file = analyze d schema' source file := by
    cases hread : bodyStatements d source file with
    | error e => rw [analyze_of_error hread, analyze_of_error hread]
    | ok all =>
        cases all with
        | nil => rw [analyze_of_nil hread, analyze_of_nil hread]
        | cons first rest =>
            -- Of the statements after the first only their number matters.
            have hfirst : contractOf d schema source first = contractOf d schema' source first := by
              rw [contractOf_eq, contractOf_eq]
              refine congrArg _ (ofStatement_congr fun found hshape r hr => h r.name ?_)
              rw [referenced_of_cons hread hshape]
              exact List.mem_map_of_mem hr
            rw [analyze_of_cons hread, analyze_of_cons hread, hfirst]
  exact ⟨hanalysis, by rw [hanalysis]⟩

/-- Schemas that differ in other tables and in the order of tables give a list of tables one
contract, with a star that stands for the columns of both relations. Where neither declares the
relation the failure is the same. -/
theorem analyze_reads_referenced_star :
    let id : String × ColumnType := ("id", ⟨"number", false, false⟩)
    let total : String × ColumnType := ("total", ⟨"number", true, false⟩)
    let tags : String × ColumnType := ("tags", ⟨"string", false, true⟩)
    let one := ((Schema.empty.withTable "shops" [tags]).withTable "orders" [id, total]).withTable
      "items" [tags]
    let other := (Schema.empty.withTable "items" [tags]).withTable "orders" [id, total]
    let query := "select total, * from orders, items"
    one ≠ other ∧
      (∃ r, analyze .postgres one query = .ok r ∧ analyze .postgres other query = .ok r ∧
        r.outputs.map (·.name) = ["total", "id", "total", "tags"]) ∧
      (analyze .postgres one "select id from users").map (fun r =>
          (Bindings.declaration .standard "q.sql" r).text) =
        (analyze .postgres other "select id from users").map fun r =>
          (Bindings.declaration .standard "q.sql" r).text := by
  intro id total tags one other query
  have hquery : ∀ name ∈ referenced .postgres query none, one.table? name = other.table? name := by
    decide +kernel
  have husers : ∀ name ∈ referenced .postgres "select id from users" none,
      one.table? name = other.table? name := by
    decide +kernel
  have houtputs : (analyze .postgres one query).toOption.map (·.outputs.map (·.name)) =
      some ["total", "id", "total", "tags"] := by
    decide +kernel
  refine ⟨by decide +kernel, ?_, ?_⟩
  · have hsame :=
      (analyze_reads_referenced .postgres query none .standard "q.sql" one other hquery).1
    obtain ⟨r, hr, hnames⟩ := Option.map_eq_some_iff.1 houtputs
    have hanalysis := eq_ok_of_toOption hr
    exact ⟨r, hanalysis, hsame.symm.trans hanalysis, hnames⟩
  · exact (analyze_reads_referenced .postgres _ none .standard "q.sql" one other husers).2

end Analysis

end TypedSql
