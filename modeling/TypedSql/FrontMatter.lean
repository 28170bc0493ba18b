import TypedSql.Keyed
import TypedSql.Text.Blank

/-!
# Front matter

A SQL file may open with a block of `key: value` lines between two lines of three dashes. The block
declares the types of the placeholders; the text after it is the SQL body.
-/

namespace TypedSql.FrontMatter

open Text

/-- A SQL file taken apart: the declarations of its front matter and the text that follows. -/
structure Source where
  metadata : Keyed String
  body : String
  deriving Inhabited

/-- Takes one character off the front, if it is there. -/
def dropLeading (c : Char) : List Char → List Char
  | [] => []
  | first :: rest => if first = c then rest else first :: rest

/-- Takes one character off the end, if it is there. -/
def dropTrailing (c : Char) (s : List Char) : List Char :=
  (dropLeading c s.reverse).reverse

/-- A text up to its first line feed and after it; all of it when there is none. -/
def breakLine : List Char → List Char × List Char
  | [] => ([], [])
  | c :: rest =>
      if c = '\n' then ([], rest)
      else
        let (line, after) := breakLine rest
        (c :: line, after)

theorem length_breakLine_le (s : List Char) : (breakLine s).2.length ≤ s.length := by
  induction s with
  | nil => simp [breakLine]
  | cons c rest ih =>
      by_cases h : c = '\n'
      · simp [breakLine, h]
      · simp only [breakLine, h, if_false, List.length_cons]; omega

theorem length_breakLine_lt {s : List Char} (h : s ≠ []) : (breakLine s).2.length < s.length := by
  cases s with
  | nil => exact absurd rfl h
  | cons c rest =>
      by_cases hc : c = '\n'
      · simp [breakLine, hc]
      · have := length_breakLine_le rest
        simp only [breakLine, hc, if_false, List.length_cons]; omega

/-- The first line without its end, and the text after it. A line ends with a line feed, and one
carriage return before that belongs to the end. -/
def nextLine (s : List Char) : List Char × List Char :=
  (dropTrailing '\r' (breakLine s).1, (breakLine s).2)

/-- Three dashes, with nothing but blanks after them. -/
def isDelimiter (line : List Char) : Bool :=
  trimRight line == ['-', '-', '-']

/-- A text in one pair of equal quotes is the text between them. -/
def unquoteWith (quote : Char) : List Char → Option (List Char)
  | [] => none
  | first :: inner =>
      if first = quote && inner.getLast? = some quote then some inner.dropLast else none

/-- Double quotes are looked for before single ones. -/
def unquote (value : List Char) : List Char :=
  (unquoteWith '\x22' value <|> unquoteWith '\x27' value).getD value

/-- A text before and after its first colon. -/
def splitColon (line : List Char) : Option (List Char × List Char) :=
  match line.dropWhile (· ≠ ':') with
  | [] => none
  | _ :: after => some (line.takeWhile (· ≠ ':'), after)

/-- The declaration that a line makes: blank lines, comments and lines without a colon make none. -/
def declaration? (line : List Char) : Option (String × String) :=
  match trim line with
  | [] => none
  | first :: rest =>
      if first = '#' then none
      else
        (splitColon (first :: rest)).map fun (key, value) =>
          (String.ofList (trim key), String.ofList (unquote (trim value)))

/-- Reads lines up to the closing delimiter; none when there is no closing delimiter. -/
def readBlock (metadata : Keyed String) (s : List Char) : Option (Keyed String × List Char) :=
  if _h : s = [] then none
  else if isDelimiter (nextLine s).1 then some (metadata, (nextLine s).2)
  else
    let metadata := match declaration? (nextLine s).1 with
      | some (key, value) => metadata.insert key value
      | none => metadata
    readBlock metadata (nextLine s).2
termination_by s.length
decreasing_by exact length_breakLine_lt ‹_›

/-- Takes a file apart. A byte order mark in front is dropped. Without an opening delimiter on the
first line, or without a closing one later, the whole text is the body. -/
def split (source : String) : Source :=
  let text := dropLeading (Char.ofNat 0xFEFF) source.toList
  let whole : Source := ⟨Keyed.empty, String.ofList text⟩
  if isDelimiter (nextLine text).1 then
    match readBlock Keyed.empty (nextLine text).2 with
    | some (metadata, body) => ⟨metadata, String.ofList body⟩
    | none => whole
  else whole

end TypedSql.FrontMatter
