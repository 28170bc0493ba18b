import TypedSql.Text.Quoted
import TypedSql.Token

/-!
# Statements

What a parsed statement consists of, and the canonical text in which its parts are written. The
parts that decide a statement's contract have types of their own; a clause that no later stage looks
into is a row of pieces: fixed wording with the expressions, queries and tables in between.
-/

namespace TypedSql

/-- A word as a name in a written statement: quotes inside are doubled, except in brackets. -/
def Word.nameText (w : Word) : String :=
  match w.quote with
  | none => w.value
  | some '[' => "[" ++ w.value ++ "]"
  | some quote => Text.quoted quote quote w.value

/-- Names joined by dots. -/
def dotted (names : List Word) : String := ".".intercalate (names.map Word.nameText)

/-- Names with commas between them. -/
def listed (names : List Word) : String := ", ".intercalate (names.map Word.nameText)

/-- A constant. -/
inductive Literal
  | number (digits : String) (long : Bool)
  | string (mark : StringMark) (quote : StringQuote) (content : String)
  | dollarString (tag : Option String) (content : String)
  | boolean (value : Bool)
  | null
  | placeholder (text : String)
  deriving DecidableEq, Repr, Inhabited

namespace Literal

/-- A string literal written out. Plain strings double their quotes, strings with escapes use these,
and the others are written as they are. -/
def stringText (mark : StringMark) (quote : StringQuote) (content : String) : String :=
  match mark, quote with
  | .plain, .single => Text.quoted '\x27' '\x27' content
  | .plain, .double => Text.quoted '\x22' '\x22' content
  | .escaped, _ => "E'" ++ String.ofList (content.toList.flatMap Text.backslashEscaped) ++ "'"
  | .unicode, _ => "U&'" ++ String.ofList (content.toList.flatMap Text.codePointEscaped) ++ "'"
  | mark, quote => mark.text ++ quote.text ++ content ++ quote.text

/-- A constant written out. -/
def text : Literal → String
  | number digits long => if long then digits ++ "L" else digits
  | string mark quote content => stringText mark quote content
  | dollarString tag content => (Token.dollarString tag content).text
  | boolean true => "true"
  | boolean false => "false"
  | null => "NULL"
  | placeholder text => text

end Literal

/-- The name given to a table, with the names given to its columns as they are written. -/
structure TableAlias where
  name : Word
  columns : List String
  deriving DecidableEq, Repr, Inhabited

/-- An alias written out. -/
def TableAlias.text (a : TableAlias) : String :=
  a.name.nameText ++
    if a.columns.isEmpty then "" else " (" ++ ", ".intercalate a.columns ++ ")"

mutual

/-- An expression. -/
inductive Expr
  | name (w : Word)
  | path (names : List Word)
  | literal (l : Literal)
  | nested (e : Expr)
  | unary (op : String) (e : Expr)
  | binary (left : Expr) (op : String) (right : Expr)
  | subquery (q : Query)
  | form (pieces : List Piece)

/-- A part of a clause. -/
inductive Piece
  | text (s : String)
  | expr (e : Expr)
  | query (q : Query)
  | table (t : TableWithJoins)

/-- A query: what stands before its body, the body, and what follows it. -/
inductive Query
  | mk (opening : List Piece) (body : QueryBody) (closing : List Piece)

/-- The body of a query. `other` is a list of rows or a whole table. -/
inductive QueryBody
  | select (s : Select)
  | query (q : Query)
  | combined (left : QueryBody) (op : String) (right : QueryBody)
  | insert (i : Insert)
  | update (u : Update)
  | other (pieces : List Piece)

/-- A select: the words after the keyword, the select list, the target of the rows, the tables, and
the clauses after them. -/
inductive Select
  | mk (opening : String) (leading : List Piece) (items : List SelectItem) (into : String)
      (sources : List TableWithJoins) (closing : List Piece)

/-- An item of a select list or of a list of returned items. The options of a wildcard follow the
star. -/
inductive SelectItem
  | wildcard (options : List Piece)
  | qualifiedWildcard (names : List Word) (options : List Piece)
  | plain (e : Expr)
  | aliased (e : Expr) (aliasName : Word)

/-- A table reference: a named table, which may be given arguments; joined tables in parentheses; or
a query, a function or another source of rows. -/
inductive TableFactor
  | named (names : List Word) (partitions : List Word) (arguments : Option (List Piece))
      (ordinality : Bool) (tableAlias : Option TableAlias) (closing : List Piece)
  | joined (t : TableWithJoins) (tableAlias : Option TableAlias)
  | other (pieces : List Piece) (tableAlias : Option TableAlias) (closing : List Piece)

/-- A table reference with the tables joined to it. -/
inductive TableWithJoins
  | mk (first : TableFactor) (joins : List Join)

/-- A joined table: the words of the join, the table, and the condition. -/
inductive Join
  | mk (words : String) (right : TableFactor) (condition : List Piece)

/-- An insert: the words before its target, the target, the rows, what to do on a conflict and the
returned items. -/
inductive Insert
  | mk (opening : String) (target : List Word) (aliasName : Option Word) (rows : List Piece)
      (conflict : Option (List Piece)) (returning : Option (List SelectItem))

/-- An update: the words before its target, the target, the assignments with what follows them, and
the returned items. -/
inductive Update
  | mk (opening : String) (target : TableWithJoins) (changes : List Piece)
      (returning : Option (List SelectItem))

end

namespace Select

/-- The select list. -/
def items : Select → List SelectItem
  | mk _ _ items _ _ _ => items

/-- The tables that are read. -/
def sources : Select → List TableWithJoins
  | mk _ _ _ _ sources _ => sources

end Select

namespace Query

/-- The body of a query. -/
def body : Query → QueryBody
  | mk _ body _ => body

end Query

namespace TableWithJoins

/-- The table before all joins. -/
def first : TableWithJoins → TableFactor
  | mk first _ => first

/-- The joins in order. -/
def joins : TableWithJoins → List Join
  | mk _ joins => joins

end TableWithJoins

/-- The table of a join. -/
def Join.right : Join → TableFactor
  | mk _ right _ => right

/-- A delete: its targets, the returned items, and the expressions of its other clauses. -/
structure Delete where
  targets : List TableWithJoins
  returning : Option (List SelectItem)
  clauses : List Piece

/-- A statement. A command is any other kind of statement and known by its name only. -/
inductive Statement
  | query (q : Query)
  | insert (i : Insert)
  | update (u : Update)
  | delete (d : Delete)
  | command (name : String)

instance : Inhabited Statement := ⟨.command ""⟩

/-! ## Writing -/

/-- Text after the word `AS`, where there is an alias. -/
def aliasText (tableAlias : Option TableAlias) : String :=
  match tableAlias with
  | some a => " AS " ++ a.text
  | none => ""

mutual

/-- An expression written out. -/
def Expr.text : Expr → String
  | .name w => w.nameText
  | .path names => dotted names
  | .literal l => l.text
  | .nested e => "(" ++ e.text ++ ")"
  | .unary op e => op ++ e.text
  | .binary left op right => left.text ++ " " ++ op ++ " " ++ right.text
  | .subquery q => "(" ++ q.text ++ ")"
  | .form pieces => pieceTexts pieces

/-- A piece written out. -/
def Piece.toText : Piece → String
  | .text s => s
  | .expr e => e.text
  | .query q => q.text
  | .table t => t.text

/-- Pieces written one after another. -/
def pieceTexts : List Piece → String
  | [] => ""
  | piece :: rest => piece.toText ++ pieceTexts rest

/-- A query written out. -/
def Query.text : Query → String
  | .mk opening body closing => pieceTexts opening ++ body.text ++ pieceTexts closing

/-- The body of a query written out. -/
def QueryBody.text : QueryBody → String
  | .select s => s.text
  | .query q => "(" ++ q.text ++ ")"
  | .combined left op right => left.text ++ " " ++ op ++ " " ++ right.text
  | .insert i => i.text
  | .update u => u.text
  | .other pieces => pieceTexts pieces

/-- A select written out. -/
def Select.text : Select → String
  | .mk opening leading items into sources closing =>
      "SELECT" ++ opening ++ pieceTexts leading ++ " " ++ itemTexts items ++ into ++
        (if sources.isEmpty then "" else " FROM ") ++ sourceTexts sources ++ pieceTexts closing

/-- An item written out. -/
def SelectItem.text : SelectItem → String
  | .wildcard options => "*" ++ pieceTexts options
  | .qualifiedWildcard names options => dotted names ++ ".*" ++ pieceTexts options
  | .plain e => e.text
  | .aliased e aliasName => e.text ++ " AS " ++ aliasName.nameText

/-- Items written out with commas between them. -/
def itemTexts : List SelectItem → String
  | [] => ""
  | item :: rest => item.text ++ (if rest.isEmpty then "" else ", ") ++ itemTexts rest

/-- The returned items written out, where there are any. -/
def returningText : Option (List SelectItem) → String
  | none => ""
  | some items => " RETURNING " ++ itemTexts items

/-- A table reference written out. -/
def TableFactor.text : TableFactor → String
  | .named names partitions arguments ordinality tableAlias closing =>
      dotted names ++
        (if partitions.isEmpty then "" else "PARTITION (" ++ listed partitions ++ ")") ++
        argumentsText arguments ++ (if ordinality then " WITH ORDINALITY" else "") ++
        aliasText tableAlias ++ pieceTexts closing
  | .joined t tableAlias => "(" ++ t.text ++ ")" ++ aliasText tableAlias
  | .other pieces tableAlias closing =>
      pieceTexts pieces ++ aliasText tableAlias ++ pieceTexts closing

/-- The arguments of a table written out, where it has any. -/
def argumentsText : Option (List Piece) → String
  | none => ""
  | some pieces => "(" ++ pieceTexts pieces ++ ")"

/-- A table with its joins written out. -/
def TableWithJoins.text : TableWithJoins → String
  | .mk first joins => first.text ++ joinTexts joins

/-- Tables written out with commas between them. -/
def sourceTexts : List TableWithJoins → String
  | [] => ""
  | table :: rest => table.text ++ (if rest.isEmpty then "" else ", ") ++ sourceTexts rest

/-- A join written out. -/
def Join.text : Join → String
  | .mk words right condition => " " ++ words ++ " " ++ right.text ++ pieceTexts condition

/-- Joins written one after another. -/
def joinTexts : List Join → String
  | [] => ""
  | join :: rest => join.text ++ joinTexts rest

/-- An insert written out. -/
def Insert.text : Insert → String
  | .mk opening target aliasName rows conflict returning =>
      opening ++ " " ++ dotted target ++
        (match aliasName with | some a => " AS " ++ a.nameText | none => "") ++ " " ++
        pieceTexts rows ++ conflictText conflict ++ returningText returning

/-- What to do on a conflict written out, where it is said. -/
def conflictText : Option (List Piece) → String
  | none => ""
  | some pieces => pieceTexts pieces

/-- An update written out. -/
def Update.text : Update → String
  | .mk opening target changes returning =>
      opening ++ " " ++ target.text ++ pieceTexts changes ++ returningText returning

end

end TypedSql
