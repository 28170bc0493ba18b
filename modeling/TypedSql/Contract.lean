import TypedSql.Diagnostic

/-!
# The contract of a statement

What a statement is, which relations and fields it names, and the typed inputs and outputs that are
promised to its callers.
-/

namespace TypedSql

/-- The five kinds of statement that have a contract. An upsert is an insert that says what to do on
a conflict. -/
inductive StatementKind
  | select
  | insert
  | upsert
  | update
  | delete
  deriving DecidableEq, Repr, Inhabited

namespace StatementKind

/-- The name of a kind. -/
def name : StatementKind → String
  | select => "select"
  | insert => "insert"
  | upsert => "upsert"
  | update => "update"
  | delete => "delete"

/-- All kinds, in the order in which error messages list them. -/
def all : List StatementKind := [select, insert, upsert, update, delete]

end StatementKind

/-- Whether a returned item stands for all columns or for one. -/
inductive FieldKind
  | wildcard
  | column
  deriving DecidableEq, Repr, Inhabited

namespace FieldKind

/-- The name of a field kind. -/
def name : FieldKind → String
  | wildcard => "wildcard"
  | column => "column"

/-- All field kinds, in the order in which error messages list them. -/
def all : List FieldKind := [wildcard, column]

end FieldKind

/-- One item that a statement returns: the column it refers to, `*` for all columns, and the name it
is given, if any. -/
structure Field where
  kind : FieldKind
  name : String
  aliasName : Option String
  deriving DecidableEq, Repr, Inhabited

namespace Field

/-- All columns. -/
def wildcard : Field := ⟨.wildcard, "*", none⟩

/-- A column under its own name. -/
def column (name : String) : Field := ⟨.column, name, none⟩

/-- A column under another name. -/
def aliased (name aliasName : String) : Field := ⟨.column, name, some aliasName⟩

end Field

/-- A reference to a table. -/
structure Relation where
  name : String
  aliasName : Option String
  deriving DecidableEq, Repr, Inhabited

/-- What a statement is apart from its dialect: its kind, the items it returns and the relations it
reads or changes, each list in source order. -/
structure StatementShape where
  kind : StatementKind
  fields : List Field
  relations : List Relation
  deriving DecidableEq, Repr, Inhabited

/-- A named placeholder with its declared type. -/
structure InputParameter where
  name : String
  typeName : String
  array : Bool
  nullable : Bool
  deriving DecidableEq, Repr, Inhabited

/-- The type of a parameter that nothing declares. -/
def InputParameter.untyped (name : String) : InputParameter := ⟨name, "any", false, false⟩

/-- A returned column with its type and the relation it belongs to. -/
structure OutputField where
  name : String
  relation : String
  typeName : String
  aliasName : Option String
  nullable : Bool
  array : Bool
  deriving DecidableEq, Repr, Inhabited

/-- The name under which the column is returned: the alias where there is one. -/
def OutputField.key (output : OutputField) : String := output.aliasName.getD output.name

/-- The typed contract of one statement, with the findings that did not stop its analysis. -/
structure Contract where
  kind : StatementKind
  inputs : List InputParameter
  outputs : List OutputField
  diagnostics : List Diagnostic
  deriving DecidableEq, Repr, Inhabited

end TypedSql
