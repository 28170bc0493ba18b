import TypedSql.Mismatch
import TypedSql.Toml.Document

/-!
# Taking records out of a TOML document

What is expected of an item, and the error when it is something else. An error lies at the item it
is about; an item without a stretch of its own leaves the place to the item or key around it.
-/

namespace TypedSql.Toml

/-- Why an item does not fit. -/
inductive Misfit
  | mismatch (mismatch : Mismatch)
  | neitherTextNorTable
  | entryCount (found : String)
  | notEmpty (expected : String)
  | notTable (type : String)
  deriving DecidableEq, Repr, Inhabited

/-- The wording of a misfit. -/
def Misfit.message : Misfit → String
  | mismatch m => m.message
  | neitherTextNorTable => "wanted string or table"
  | entryCount found => s!"wanted exactly 1 element, {found}"
  | notEmpty expected => s!"expected empty {expected}"
  | notTable type => s!"expected table, found {type}"

/-- A misfit with its place, if that is known. -/
structure Misplaced where
  misfit : Misfit
  span : Option Span
  deriving Inhabited

/-- Takes a value out of an item. -/
abbrev Decoder (α : Type) := Item → Except Misplaced α

namespace Decoder

variable {α : Type}

/-- A value as messages name it. -/
def found : Item → Found
  | .text value _ => .text value
  | .integer value _ => .integer value
  | .decimal shown _ => .decimal shown
  | .flag value _ => .flag value
  | .dateTime _ => .map
  | .list .. | .tables .. => .list
  | .braced .. | .table .. => .map

/-- Fails because an item is not what is expected. -/
def refuse (expected : String) : Decoder α := fun item =>
  .error ⟨.mismatch (.wrongType (found item) expected), item.span?⟩

/-- Places an error that has no place yet. -/
def within (span : Option Span) (result : Except Misplaced α) : Except Misplaced α :=
  result.mapError fun e => { e with span := e.span.or span }

/-- Decodes the item of an entry. -/
def ofEntry (decode : Decoder α) (entry : Key × Item) : Except Misplaced α :=
  within (entry.2.span?.or (some entry.1.span)) (decode entry.2)

/-- Texts; `expected` names them in messages. -/
def text (expected : String) : Decoder String
  | .text value _ => .ok value
  | item => refuse expected item

/-- Lists, of values or of tables. -/
def list (decode : Decoder α) : Decoder (List α)
  | .list items _ => items.mapM decode
  | .tables items span => within span (items.mapM decode)
  | item => refuse "a sequence" item

/-- The named choice, at the place of its name. -/
def choiceNamed (choices : List α) (name : α → String) (given : String) (span : Option Span) :
    Except Misplaced α :=
  match choices.find? fun choice => name choice == given with
  | some choice => .ok choice
  | none => .error ⟨.mismatch (.unknownVariant given (choices.map name)), span⟩

/-- A choice has nothing to say beside its name. -/
def nothing : Decoder Unit
  | .list [] _ | .tables [] _ | .braced _ [] _ | .table _ [] _ => .ok ()
  | .list _ span => .error ⟨.notEmpty "array", some span⟩
  | .tables _ span => .error ⟨.notEmpty "array", span⟩
  | .braced _ _ span | .table _ _ span => .error ⟨.notEmpty "table", span⟩
  | item => .error ⟨.notTable item.typeName, item.span?⟩

/-- One of several named values: its name, or a table with the name as its only key. -/
def choice (choices : List α) (name : α → String) : Decoder α
  | .text given span => choiceNamed choices name given (some span)
  | .braced _ entries span | .table _ entries span =>
      match entries with
      | [(key, item)] => do
          let choice ← choiceNamed choices name key.name (some key.span)
          within span (nothing item)
          return choice
      | [] => .error ⟨.entryCount "found 0 elements", span⟩
      | _ => .error ⟨.entryCount "more than 1 element", span⟩
  | item => .error ⟨.neitherTextNorTable, item.span?⟩

end Decoder

/-- An error as it is shown: below the line it is about. -/
def Misplaced.report (text : List Char) (e : Misplaced) : String :=
  match e.span with
  | some span => excerpt text span e.misfit.message
  | none => e.misfit.message ++ "\n"

end TypedSql.Toml
