import TypedSql.Toml.DateTime
import TypedSql.Toml.Number
import TypedSql.Toml.Printer

/-!
# Keys and values of a TOML text

A key is a sequence of steps with points between them. A value is a scalar, a list, or a table
between braces, in which keys build tables as they go.
-/

namespace TypedSql.Toml

open Reader

/-- The deepest nesting of values, and the longest key. -/
def maxDepth : Nat := 79

/-- One step of a key. -/
def keyStep : Reader Key := do
  let step : Reader String := do
    match ← peek with
    | none => fail
    | some '\x22' => basicString
    | some '\x27' => literalString
    | some _ => return String.ofList (← oneOrMore isBareChar)
  let (name, span) ← spanned step
  return ⟨name, span⟩

/-- A step with the blanks around it. -/
def spacedStep : Reader Key := do
  let _ ← blanks
  let key ← keyStep
  let _ ← blanks
  return key

/-- A key: the steps that lead to a table, and the last step. -/
def key : Reader (List Key × Key) :=
  let steps : Reader (Key × List Key) := labelled "key" do
    let first ← spacedStep
    return (first, ← repeated (do let _ ← char '.'; spacedStep))
  checked steps fun (first, more) =>
    if maxDepth < more.length + 1 then .error .tooDeep
    else .ok ((first :: more).dropLast, (first :: more).getLast (by simp))

/-- The sign between a key and its value. -/
def keySign : Reader Unit := expecting ["`.`", "`=`"] (discard (char '='))

/-! ## Tables between braces -/

/-- Stores an item under a new key of a table. -/
def Table.store (t : Table) (key : Key) (item : Item) : Table :=
  { t with entries := t.entries ++ [(key, item)] }

/-- The item under a key of a table. -/
def Table.find? (t : Table) (name : String) : Option Item :=
  (t.entries.find? fun entry => entry.1.name == name).map Prod.snd

/-- Replaces the item under a key of a table; a key that is not there is added. -/
def Table.replace (t : Table) (key : Key) (item : Item) : Table :=
  if (t.find? key.name).isSome then
    { t with
      entries := t.entries.map fun entry =>
        if entry.1.name == key.name then (entry.1, item) else entry }
  else t.store key item

/-- Changes the table that a path leads to inside a table between braces. Tables that are missing on
the way are dotted ones; a table that is defined is closed. `passed` holds the steps before. -/
def Table.changeBraced (f : Table → Except Clash Table) (passed : List String) :
    List Key → Table → Except Clash Table
  | [], t => f t
  | key :: path, t => do
      let child ← match t.find? key.name with
        | none => .ok ⟨.dotted, [], none⟩
        | some (.braced .defined ..) => .error (.repeatedKey key.name)
        | some (.braced kind entries span) => .ok ⟨kind, entries, span⟩
        | some item => .error (.extendsValue (passed ++ [key.name]) item.typeName)
      let child ← Table.changeBraced f (passed ++ [key.name]) path child
      return t.replace key (.braced child.kind child.entries child.span)

/-- Adds an entry to a table that a path of steps leads to. A table is changed either by its own
entries or by dotted keys, never by both. -/
def Table.addHere (dotted : Bool) (repeated : Clash) (key : Key) (item : Item) (t : Table) :
    Except Clash Table :=
  if (t.kind == .dotted) != dotted then .error (.repeatedKey key.name)
  else if (t.find? key.name).isSome then .error repeated
  else .ok (t.store key item)

/-- The table between braces that has the given entries. -/
def Table.ofEntries (entries : List (List Key × Key × Item)) : Except Clash Table :=
  entries.foldlM
    (fun t (path, key, item) =>
      t.changeBraced (Table.addHere (!path.isEmpty) (.repeatedKey key.name) key item) [] path)
    ⟨.defined, [], none⟩

/-! ## Values -/

/-- The bare words. -/
def flagWord (word : List Char) (value : Bool) : Reader Bool := do
  commit (literal word)
  return value

/-- A scalar, by its first character. -/
def scalar (first : Char) : Reader (Span → Item) := do
  if first == '\x22' || first == '\x27' then return .text (← string)
  else if first == '+' || first == '-' || first.isDigit then
    orTry (do dateTime; return .dateTime) <|
      orTry (return .decimal (← float)) (return .integer (← integer))
  else
    match first with
    | '_' => return .integer (← expecting ["leading digit"] integer)
    | '.' => return .decimal (← expecting ["leading digit"] float)
    | 't' => return .flag (← flagWord ['t', 'r', 'u', 'e'] true)
    | 'f' => return .flag (← flagWord ['f', 'a', 'l', 's', 'e'] false)
    | 'i' => return .decimal (Decimal.text decimalStyle (← infinity))
    | 'n' => return .decimal (Decimal.text decimalStyle (← notANumber))
    | _ => labelled "string" (expecting ["`\"`", "`'`"] fail)

/-- A list, whose items `item` reads. -/
def listOf (item : Reader Item) : Reader (Span → Item) := do
  let _ ← char '['
  let spaced : Reader Item := do
    gap
    let x ← item
    gap
    return x
  let items ← commit do
    match ← peek with
    | some ']' => return []
    | _ =>
        let items ← separated spaced (char ',')
        if !items.isEmpty then discard (optional (char ','))
        gap
        return items
  let _ ← labelled "array" (expecting ["`]`"] (commit (char ']')))
  return .list items

/-- An entry of a table between braces, whose value `item` reads. -/
def bracedEntry (item : Reader Item) : Reader (List Key × Key × Item) := do
  let (path, last) ← key
  commit do
    keySign
    let _ ← blanks
    let x ← item
    let _ ← blanks
    return (path, last, x)

/-- A table between braces, whose values `item` reads. -/
def bracedOf (item : Reader Item) : Reader (Span → Item) := do
  let _ ← char '\x7b'
  let entries : Reader (List (List Key × Key × Item)) := do
    let entries ← separated (bracedEntry item) (char ',')
    let _ ← blanks
    return entries
  let t ← commit (checked entries Table.ofEntries)
  let _ ← labelled "inline table" (expecting ["`\x7d`"] (commit (char '\x7d')))
  return fun span => .braced t.kind t.entries (some span)

/-- A value with at most `depth` lists and tables inside one another. -/
def value : (depth : Nat) → Reader Item
  | 0 => item fun _ => fun cs => .error { Fault.ofClash cs .tooDeep with final := true }
  | depth + 1 => item fun c => if c == '[' then listOf (value depth) else bracedOf (value depth)
where
  item (container : Char → Reader (Span → Item)) : Reader Item := do
    let body : Reader (Span → Item) := do
      match ← peek with
      | none => fail
      | some c => if c == '[' || c == '\x7b' then container c else scalar c
    let (x, span) ← spanned body
    return x span

end TypedSql.Toml
