/-!
# Module declarations

The declaration of a module: the interfaces it exports and the functions it exports, each with its
typed members, and the text in which a declaration is written.
-/

namespace TypedSql

/-- A name with its type: a field of an interface or a parameter of a function. -/
structure Member where
  name : String
  typeName : String
  deriving DecidableEq, Repr, Inhabited

/-- A record type with its fields in order. -/
structure Interface where
  name : String
  fields : List Member
  deriving DecidableEq, Repr, Inhabited

/-- The signature of a function. -/
structure Signature where
  name : String
  params : List Member
  returns : String
  deriving DecidableEq, Repr, Inhabited

/-- All that one module exports. -/
structure Declaration where
  module : String
  interfaces : List Interface
  functions : List Signature
  deriving DecidableEq, Repr, Inhabited

namespace Member

/-- The name, a colon and the type. -/
def text (m : Member) : String := m.name ++ ": " ++ m.typeName

end Member

/-- An interface takes one line for its name, one for each field and one for its end. Without fields
an empty line stands in their place. -/
def Interface.text (i : Interface) : String :=
  "  export interface " ++ i.name ++ " \x7b\n" ++
    "\n".intercalate (i.fields.map fun field => "    " ++ field.text) ++ "\n  \x7d\n"

/-- A function takes one line. -/
def Signature.text (s : Signature) : String :=
  "  export function " ++ s.name ++ "(" ++ ", ".intercalate (s.params.map Member.text) ++ "): " ++
    s.returns

namespace Declaration

/-- A block of lines stands between an empty line before it and the end of its last line; a block
without lines leaves no trace. -/
def block (lines : List String) : String :=
  if lines.isEmpty then "" else "\n\n" ++ "\n".intercalate lines ++ "\n"

/-- The interfaces come first, then the functions, each group as a block. -/
def text (d : Declaration) : String :=
  "declare module \"" ++ d.module ++ "\" \x7b" ++ block (d.interfaces.map Interface.text) ++
    block (d.functions.map Signature.text) ++ "\x7d"

end Declaration

end TypedSql
