/-!
# Paths

File paths as they are written, and the components that decide what they mean. Two paths that differ
only in repeated separators and in steps that stay in place have the same components.

Paths are texts. A file system may hold names that are no text, whose bytes are not valid UTF-8:
such names are left out, and with them the step in which a module name replaces what is no text.
-/

namespace TypedSql

/-- A path as it is written: a text, so names of files that are not valid UTF-8 are left out. -/
structure Path where
  text : String
  deriving DecidableEq, Repr, Inhabited

/-- A step of a path. -/
inductive Component
  | root
  | current
  | parent
  | name (text : String)
  deriving DecidableEq, Repr, Inhabited

namespace Component

/-- The class in which a component is sorted. -/
def rank : Component → Nat
  | root => 0
  | current => 1
  | parent => 2
  | name _ => 3

/-- Components are sorted by class, names among themselves by code point. -/
def lt : Component → Component → Bool
  | name a, name b => decide (a < b)
  | a, b => a.rank < b.rank

/-- The text of a component that is a name. -/
def name? : Component → Option String
  | name text => some text
  | _ => none

end Component

namespace Path

/-- Whether a path starts at the root. -/
def isAbsolute (p : Path) : Bool := p.text.toList.head? = some '/'

/-- Cuts a text at every separator. -/
def cut : List Char → List (List Char)
  | [] => [[]]
  | c :: rest =>
      match cut rest with
      | [] => [[]]
      | first :: others => if c = '/' then [] :: first :: others else (c :: first) :: others

/-- The step that a segment stands for; an empty segment or a dot stands for none. -/
def step? (segment : List Char) : Option Component :=
  if segment = [] || segment = ['.'] then none
  else if segment = ['.', '.'] then some .parent
  else some (.name (String.ofList segment))

/-- The steps of a path in order. A dot counts only at the very start of a relative path. -/
def components (p : Path) : List Component :=
  match p.text.toList with
  | [] => []
  | '/' :: rest => .root :: (cut rest).filterMap step?
  | s =>
      match cut s with
      | ['.'] :: others => .current :: others.filterMap step?
      | segments => segments.filterMap step?

/-- One path below another. An absolute path stands for itself. -/
def join (base p : Path) : Path :=
  if p.isAbsolute then p
  else if base.text.isEmpty || base.text.toList.getLast? = some '/' then ⟨base.text ++ p.text⟩
  else ⟨base.text ++ "/" ++ p.text⟩

/-- Drops segments at the end that stand for no step; `anchored` keeps a dot that comes first. -/
def dropIdle (anchored : Bool) : List (List Char) → List (List Char)
  | [] => []
  | segment :: rest =>
      match dropIdle false rest with
      | [] =>
          if segment = [] || (segment = ['.'] && !anchored) then [] else [segment]
      | others => segment :: others

/-- The path without its last step; none when there is no step to take away. -/
def parent (p : Path) : Option Path :=
  let (lead, rest) := match p.text.toList with
    | '/' :: rest => ("/", rest)
    | s => ("", s)
  let anchored := lead.isEmpty
  match dropIdle anchored (cut rest) with
  | [] => none
  | segments =>
      let kept := dropIdle anchored segments.dropLast
      some ⟨lead ++ "/".intercalate (kept.map String.ofList)⟩

/-- The last step, where it is a name. -/
def fileName (p : Path) : Option String :=
  p.components.getLast?.bind Component.name?

/-- What follows the last dot of the file name. A name that has its only dot in front has none. -/
def extension (p : Path) : Option String :=
  p.fileName.bind fun name =>
    let reversed := name.toList.reverse
    match reversed.dropWhile (· ≠ '.') with
    | [] => none
    | _ :: before =>
        if before.isEmpty then none
        else some (String.ofList (reversed.takeWhile (· ≠ '.')).reverse)

/-- What is left of a list after another one in front of it. -/
def afterPrefix? : List Component → List Component → Option (List Component)
  | [], rest => some rest
  | _ :: _, [] => none
  | a :: lead, b :: rest => if a = b then afterPrefix? lead rest else none

/-- The steps of a path below a root; all of its steps when it does not lie below. -/
def componentsBelow (p root : Path) : List Component :=
  (afterPrefix? root.components p.components).getD p.components

/-- Paths are sorted step by step. -/
def lt (a b : Path) : Bool :=
  go a.components b.components
where
  /-- The order of two lists of steps: the first difference decides, and a list comes after its
  beginnings. -/
  go : List Component → List Component → Bool
    | _, [] => false
    | [], _ :: _ => true
    | x :: xs, y :: ys => if x = y then go xs ys else x.lt y

/-- The text added to the end of a path as it is written. -/
def append (p : Path) (tail : String) : Path := ⟨p.text ++ tail⟩

end Path

end TypedSql
