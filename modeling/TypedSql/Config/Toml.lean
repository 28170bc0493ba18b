import TypedSql.Config
import TypedSql.Toml.Decode

/-!
# Configuration files

A configuration is kept as TOML. Every key may be left out, and keys that mean nothing are passed
over.
-/

namespace TypedSql

open Toml

/-- One entry of the table of interface names. -/
def InterfaceNames.withEntry (names : InterfaceNames) (entry : Key × Item) :
    Except Misplaced InterfaceNames := do
  match entry.1.name with
  | "input_interface" => return { names with input := ← Decoder.ofEntry (.text "a string") entry }
  | "result_interface" => return { names with result := ← Decoder.ofEntry (.text "a string") entry }
  | _ => return names

/-- Interface names: a table, or a list in the order input, result. -/
def InterfaceNames.decode : Decoder InterfaceNames
  | .table _ entries span | .braced _ entries span =>
      Decoder.within span (entries.foldlM withEntry standard)
  | .list items span => Decoder.within (some span) (ofItems items)
  | .tables items span => Decoder.within span (ofItems items)
  | item => Decoder.refuse "struct BindingsConfig" item
where
  ofItems : List Item → Except Misplaced InterfaceNames
    | [] => .ok standard
    | [input] => do return { standard with input := ← Decoder.text "a string" input }
    | input :: result :: _ => do
        let input ← Decoder.text "a string" input
        return ⟨input, ← Decoder.text "a string" result⟩

namespace Config

/-- A path. -/
def decodePath : Decoder Path := fun item => Path.mk <$> Decoder.text "path string" item

/-- One entry of a configuration. -/
def withEntry (c : Config) (entry : Key × Item) : Except Misplaced Config := do
  match entry.1.name with
  | "dialect" =>
      return { c with dialect := ← Decoder.ofEntry (.choice Dialect.all Dialect.name) entry }
  | "schema" => return { c with schema := ← Decoder.ofEntry decodePath entry }
  | "sources" => return { c with sources := ← Decoder.ofEntry (.list decodePath) entry }
  | "out_dir" => return { c with outDir := some (← Decoder.ofEntry decodePath entry) }
  | "bindings" => return { c with bindings := ← Decoder.ofEntry InterfaceNames.decode entry }
  | _ => return c

/-- Reads the configuration of the project at a root. An error comes as the text in which it is
shown. -/
def ofText (root : Path) (text : String) : Except String Config := do
  let table ← Toml.ofText text
  (table.entries.foldlM withEntry (standard root)).mapError fun e => e.report text.toList

/-- An entry on a line of its own. -/
def writeEntry (name : String) (value : List Char) : List Char :=
  name.toList ++ [' ', '=', ' '] ++ value ++ ['\n']

/-- The text in which a configuration is kept. An output directory that is not set is left out. -/
def text (c : Config) : String :=
  String.ofList <|
    writeEntry "dialect" (writeText c.dialect.name) ++
    writeEntry "schema" (writeText c.schema.text) ++
    writeEntry "sources" (writeTexts (c.sources.map Path.text)) ++
    (match c.outDir with
      | some dir => writeEntry "out_dir" (writeText dir.text)
      | none => []) ++
    "\n[bindings]\n".toList ++
    writeEntry "input_interface" (writeText c.bindings.input) ++
    writeEntry "result_interface" (writeText c.bindings.result)

end Config

end TypedSql
