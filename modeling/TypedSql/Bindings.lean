import TypedSql.Contract
import TypedSql.Declaration
import TypedSql.TypeText

/-!
# Bindings

The declaration that a statement's contract turns into: an interface for the parameters, one for a
returned row, and the functions that run the statement.
-/

namespace TypedSql

/-- The names that the two interfaces of a module are given. -/
structure InterfaceNames where
  input : String
  result : String
  deriving DecidableEq, Repr, Inhabited

namespace InterfaceNames

/-- The names used where nothing else is configured. -/
def standard : InterfaceNames := ⟨"Input", "Result"⟩

end InterfaceNames

namespace Contract

/-- Of outputs with their places those whose key none before them has; `seen` holds the keys that
were there before. -/
def firstOfKeys (seen : List String) : List (OutputField × Nat) → List (OutputField × Nat)
  | [] => []
  | (output, place) :: rest =>
      let others := firstOfKeys (output.key :: seen) rest
      if seen.contains output.key then others else (output, place) :: others

/-- The first output of every key, in order. -/
def distinctOutputs (c : Contract) : List OutputField :=
  (firstOfKeys [] c.outputs.zipIdx).map Prod.fst

/-- The outputs that are none of these, in order. An output is told by its place here, since two
outputs can be the same in everything. -/
def clashingOutputs (c : Contract) : List OutputField :=
  let kept := (firstOfKeys [] c.outputs.zipIdx).map Prod.snd
  (c.outputs.zipIdx.filter fun (_, place) => !kept.contains place).map Prod.fst

end Contract

/-- The field of a parameter. -/
def InputParameter.member (input : InputParameter) : Member :=
  ⟨input.name, TypeText.render input.typeName input.array input.nullable⟩

/-- The field of a returned column. -/
def OutputField.member (output : OutputField) : Member :=
  ⟨output.key, TypeText.render output.typeName output.array output.nullable⟩

namespace Bindings

/-- The parameter interface is there only when there are parameters, the row interface only when
something is returned. -/
def interfaces (names : InterfaceNames) (c : Contract) : List Interface :=
  (if c.inputs.isEmpty then [] else [⟨names.input, c.inputs.map InputParameter.member⟩]) ++
    (if c.outputs.isEmpty then []
      else [⟨names.result, c.distinctOutputs.map OutputField.member⟩])

/-- The parameter list that every function of the module has. -/
def parameters (names : InterfaceNames) (c : Contract) : List Member :=
  if c.inputs.isEmpty then [] else [⟨"input", names.input⟩]

/-- A statement that returns nothing has one function; any other has one for all rows and one for
the first. -/
def functions (names : InterfaceNames) (c : Contract) : List Signature :=
  if c.outputs.isEmpty then [⟨"query", parameters names c, "Promise<void>"⟩]
  else
    [⟨"query", parameters names c, "Promise<" ++ names.result ++ "[]>"⟩,
      ⟨"one", parameters names c, "Promise<" ++ names.result ++ ">"⟩]

/-- The declaration of a module. -/
def declaration (names : InterfaceNames) (module : String) (c : Contract) : Declaration :=
  ⟨module, interfaces names c, functions names c⟩

/-- The finding that an output was left out. -/
def clash (names : InterfaceNames) (output : OutputField) : Diagnostic :=
  .ofMessage .sqlDuplicateOutput .warn
    (s!"Output `{output.key}` of relation `{output.relation}` clashes with an earlier output and " ++
      s!"is left out of `{names.result}`")

/-- One finding for every output that is left out of the row interface. -/
def clashes (names : InterfaceNames) (c : Contract) : List Diagnostic :=
  c.clashingOutputs.map (clash names)

end Bindings

end TypedSql
