import TypedSql.Toml.Value

/-!
# TOML documents line by line

A document is read into one table. A header opens a table, into which the entries below it go; when
the next header comes, the table is put into its place in the document.
-/

namespace TypedSql.Toml

open Reader

/-- The table so far, and the table that is open with its path. The path is empty before the first
header, and `inList` tells that the open table is one of several of its name. -/
structure Document where
  root : Table
  current : Table
  path : List Key
  inList : Bool
  deriving Inhabited

/-- An empty table of some kind. -/
def Table.ofKind (kind : TableKind) : Table := ⟨kind, [], none⟩

/-- The table as an item. -/
def Table.item (t : Table) : Item := .table t.kind t.entries t.span

/-- Changes the table that a path leads to. Tables that are missing on the way are added: implied by
a header, or by a dotted key. A dotted key does not lead into a table that is defined. Of several
tables of one name the last is meant. `passed` holds the steps before. -/
def Table.change (dotted : Bool) (f : Table → Except Clash Table) (passed : List String) :
    List Key → Table → Except Clash Table
  | [], t => f t
  | key :: path, t => do
      let inside := Table.change dotted f (passed ++ [key.name]) path
      match t.find? key.name with
      | none =>
          let child ← inside (.ofKind (if dotted then .dotted else .implied))
          return t.replace key child.item
      | some (.table kind entries span) =>
          if dotted && kind == .defined then .error (.repeatedKey key.name)
          else return t.replace key (← inside ⟨kind, entries, span⟩).item
      | some (.tables items span) =>
          match items.getLast? with
          | some (.table kind entries tableSpan) =>
              let child ← inside ⟨kind, entries, tableSpan⟩
              return t.replace key (.tables (items.dropLast ++ [child.item]) span)
          | _ => .error (.repeatedKey key.name)
      | some item => .error (.extendsValue (passed ++ [key.name]) item.typeName)

/-- Takes the item under a key out of a table. -/
def Table.remove (t : Table) (name : String) : Table :=
  { t with entries := t.entries.filter fun entry => entry.1.name != name }

/-- The clash of a header with an item that is there already. -/
def repeatedHeader (path : List Key) (key : Key) : Clash :=
  .repeatedIn (String.ofList (writeKey key.name)) (path.map Key.name)

/-- The stretch of several tables of one name: from the first to the last. -/
def tablesSpan (items : List Item) : Option Span := do
  let first ← (← items.head?).span?
  let last ← (← items.getLast?).span?
  return ⟨first.start, last.stop⟩

namespace Document

/-- Nothing has been read of a text. -/
def start (text : List Char) : Document :=
  ⟨.ofKind .defined, { Table.ofKind .defined with span := some ⟨text, text⟩ }, [], false⟩

/-- Puts the open table into its place. -/
def close (d : Document) : Except Clash Document := do
  let root ← match d.path.getLast? with
    | none => .ok d.current
    | some key =>
        let parents := d.path.dropLast
        d.root.change false (fun parent =>
          if d.inList then
            match parent.find? key.name with
            | none => .ok (parent.store key (.tables [d.current.item] d.current.span))
            | some (.tables items _) =>
                let items := items ++ [d.current.item]
                .ok (parent.replace key (.tables items (tablesSpan items)))
            | some _ => .error (repeatedHeader parents key)
          else
            match parent.find? key.name with
            | none => .ok (parent.store key d.current.item)
            | some (.table .defined ..) => .error (repeatedHeader parents key)
            | some (.table ..) => .ok (parent.replace key d.current.item)
            | some _ => .error (repeatedHeader parents key)) [] parents
  return ⟨root, .ofKind .defined, [], false⟩

/-- Opens the table of a header. A table that other headers have implied is taken out of its place
and keeps its entries. -/
def openTable (path : List Key) (key : Key) (span : Span) (d : Document) :
    Except Clash Document := do
  let d ← d.close
  let root ← d.root.change false .ok [] path
  let kept ← match lookup path root with
    | none => .ok []
    | some (.table .implied entries _) => .ok entries
    | some _ => .error (repeatedHeader path key)
  let root ← root.change false (fun parent => .ok (parent.remove key.name)) [] path
  return ⟨root, ⟨.defined, kept, some span⟩, path ++ [key], false⟩
where
  lookup : List Key → Table → Option Item
    | [], t => t.find? key.name
    | step :: steps, t =>
        match t.find? step.name with
        | some (.table kind entries span) => lookup steps ⟨kind, entries, span⟩
        | some (.tables items _) =>
            match items.getLast? with
            | some (.table kind entries span) => lookup steps ⟨kind, entries, span⟩
            | _ => none
        | _ => none

/-- Opens another table of the name in a header. -/
def openListed (path : List Key) (key : Key) (span : Span) (d : Document) :
    Except Clash Document := do
  let d ← d.close
  let root ← d.root.change false (fun parent =>
    match parent.find? key.name with
    | none => .ok (parent.store key (.tables [] none))
    | some (.tables ..) => .ok parent
    | some _ => .error (repeatedHeader path key)) [] path
  return ⟨root, ⟨.defined, [], some span⟩, path ++ [key], true⟩

/-- Adds an entry to the open table, whose stretch then reaches to the end of the entry. -/
def addEntry (path : List Key) (key : Key) (item : Item) (d : Document) :
    Except Clash Document := do
  let span := match d.current.span, item.span? with
    | some span, some added => some ⟨span.start, added.stop⟩
    | span, _ => span
  let repeated := Clash.repeatedIn key.name (d.path.map Key.name)
  let current ← Table.change true (Table.addHere (!path.isEmpty) repeated key item) [] path
    { d.current with span }
  return { d with current }

end Document

/-! ## Lines -/

/-- What one line does to a document. -/
abbrev Line := Document → Except Clash Document

/-- A header between brackets. -/
def headerOf (opening closing : List Char) (expected : String)
    (run : List Key → Key → Span → Line) : Reader Line := do
  let header : Reader (List Key × Key) := do
    literal opening
    let path ← commit key
    expecting ["`.`", expected] (commit (literal closing))
    return path
  let ((path, last), span) ← spanned header
  expecting ["newline", "`#`"] (commit lineRest)
  return run path last span

/-- The header of a table, or of one of several tables of a name. -/
def header : Reader Line := do
  match (← get).take 2 with
  | ['[', '['] => headerOf ['[', '['] [']', ']'] "`]]`" Document.openListed
  | [_, _] => headerOf ['['] [']'] "`]`" Document.openTable
  | _ => fail

/-- An entry. -/
def entry : Reader Line := do
  let (path, last) ← key
  commit do
    keySign
    let _ ← blanks
    let item ← value maxDepth
    expecting ["newline", "`#`"] lineRest
    return Document.addEntry path last item

/-- A line, which is run on the document as soon as it has been read. A line that clashes with the
document is reported at its start; a header is named by its label. -/
def line (d : Document) : Reader Document := do
  match ← peek with
  | none => fail
  | some '#' => commit do
      comment
      lineEnd
      return d
  | some '[' => commit (labelled "table header" (checked header fun run => run d))
  | some '\n' | some '\r' => do
      newline
      return d
  | some _ => commit (checked entry fun run => run d)

/-- Lines up to the end of the text; `fuel` bounds their number. -/
def linesLoop : Nat → Document → Reader Document
  | 0, d => return d
  | fuel + 1, d => do
      match ← optional (line d) with
      | none => return d
      | some d =>
          let _ ← blanks
          linesLoop fuel d

/-- A whole document. A mark at the start of the text is passed over. -/
def document : Reader Document := do
  let d := Document.start (← get)
  let _ ← optional (char '\ufeff')
  let _ ← blanks
  let d ← linesLoop ((← get).length + 1) d
  atEnd
  return d

/-- Reads a text into a table. An error comes as the text in which it is shown. -/
def ofText (text : String) : Except String Table :=
  let cs := text.toList
  match document cs with
  | .error fault => .error (fault.report cs)
  | .ok (d, _) =>
      match d.close with
      | .ok d => .ok d.root
      | .error clash => .error (clash.message ++ "\n")

end TypedSql.Toml
