import TypedSql.Grammar.Option

/-!
# Reading columns

The columns and constraints of a table definition. Of the forms that only some dialects know, the
first words are taken in every dialect, and the reading goes on after them.
-/

namespace TypedSql.Grammar

/-! ## Constraints -/

/-- Reads when a constraint is checked: whether it can be deferred, when it is at first, and whether
it is enforced, each at most once. -/
def constraintTiming : Parse Unit :=
  eachOnce fun seen => do
    let open? (label : String) := !seen.contains label
    if open? "deferrable" then
      if ← keywords? ["NOT", "DEFERRABLE"] then return some "deferrable"
      if ← keyword? "DEFERRABLE" then return some "deferrable"
    if open? "initially" then
      if ← keyword? "INITIALLY" then
        unless (← oneOf? ["DEFERRED", "IMMEDIATE"]).isSome do
          failHere "one of DEFERRED or IMMEDIATE"
        return some "initially"
    if open? "enforced" then
      if ← keyword? "ENFORCED" then return some "enforced"
      if ← keywords? ["NOT", "ENFORCED"] then return some "enforced"
    return none

/-- Reads what happens to a row when the row that it refers to changes. -/
def referenceAction : Parse Unit := do
  if ← keyword? "RESTRICT" then return
  if ← keyword? "CASCADE" then return
  if ← keywords? ["SET", "NULL"] then return
  if ← keywords? ["NO", "ACTION"] then return
  if ← keywords? ["SET", "DEFAULT"] then return
  failHere "one of RESTRICT, CASCADE, SET NULL, NO ACTION or SET DEFAULT"

/-- Reads the actions on a row when the row that it refers to is deleted or updated, each at most
once. -/
def referenceActions : Parse Unit := do
  eachOnce fun seen => do
    for word in ["DELETE", "UPDATE"] do
      unless seen.contains word do
        if ← keywords? ["ON", word] then
          referenceAction
          return some word
    return none
  constraintTiming

/-- Reads a condition in parentheses. -/
def condition (inner : Level) : Parse Unit := discard <| parens (inner.expr 0)

/-! ## Options of a column -/

/-- Reads the options of a sequence, each if it is there, in a fixed order. -/
def sequenceOptions : Parse Unit := do
  if ← keyword? "INCREMENT" then
    discard <| keyword? "BY"
    discard signedNumber
  if ← keyword? "MINVALUE" then discard signedNumber
  else discard <| keywords? ["NO", "MINVALUE"]
  if ← keyword? "MAXVALUE" then discard signedNumber
  else discard <| keywords? ["NO", "MAXVALUE"]
  if ← keyword? "START" then
    discard <| keyword? "WITH"
    discard signedNumber
  if ← keyword? "CACHE" then discard signedNumber
  unless ← keywords? ["NO", "CYCLE"] do discard <| keyword? "CYCLE"

/-- Reads the options of a sequence in parentheses, if they are there. -/
def sequenceGroup : Parse Unit := do
  if ← atSymbol .leftParen then parens sequenceOptions

/-- Reads a text in single quotes. -/
def quotedText (expected : String) : Parse Unit := do
  let found ← next
  match tokenOf found with
  | some (.string .plain .single _) => return
  | _ => unexpected expected found

/-- Reads how the value of a generated column comes about, after the word `GENERATED`, and tells
whether it is said. -/
def generatedValue (inner : Level) : Parse Bool := do
  if ← keywords? ["ALWAYS", "AS", "IDENTITY"] then
    sequenceGroup
    return true
  else if ← keywords? ["BY", "DEFAULT", "AS", "IDENTITY"] then
    sequenceGroup
    return true
  else if ← keywords? ["ALWAYS", "AS"] then
    unless ← atSymbol .leftParen do return false
    condition inner
    unless ← keyword? "STORED" do
      if inner.dialect == .postgres then failHere "STORED"
      discard <| keyword? "VIRTUAL"
    return true
  else return false

/-- Reads an option of a column that all dialects have, if one is next. -/
def plainColumnOption? (inner : Level) : Parse Bool := do
  let d := inner.dialect
  if ← keywords? ["CHARACTER", "SET"] then
    discard <| objectNameIn d
    return true
  if ← keywords? ["NOT", "NULL"] then return true
  if ← keyword? "COMMENT" then
    quotedText "string"
    return true
  if ← keyword? "NULL" then return true
  if ← keyword? "DEFAULT" then
    discard <| inner.expr 0
    return true
  if d == .ansi then
    if (← oneOf? ["MATERIALIZED", "ALIAS"]).isSome then
      discard <| inner.expr 0
      return true
    if ← keyword? "EPHEMERAL" then
      unless (← atSymbol .comma) || (← atSymbol .rightParen) do discard <| inner.expr 0
      return true
  if ← keywords? ["PRIMARY", "KEY"] then
    constraintTiming
    return true
  if ← keyword? "UNIQUE" then
    constraintTiming
    return true
  if ← keyword? "REFERENCES" then
    discard <| objectNameIn d
    discard <| names? false
    referenceActions
    return true
  if ← keyword? "CHECK" then
    condition inner
    return true
  return false

/-- Reads an option of a column that some dialects have, if one is next. -/
def specialColumnOption? (inner : Level) : Parse Bool := do
  let d := inner.dialect
  let mysqlLike := d == .mysql || d == .ansi
  let sqliteLike := d == .sqlite || d == .ansi
  if ← known? mysqlLike ["AUTO_INCREMENT"] then return true
  if ← known? sqliteLike ["AUTOINCREMENT"] then return true
  if ← known? sqliteLike ["ASC"] then return true
  if ← known? sqliteLike ["DESC"] then return true
  if ← known? mysqlLike ["ON", "UPDATE"] then
    discard <| inner.expr 0
    return true
  if ← keyword? "GENERATED" then return ← generatedValue inner
  if d == .bigquery || d == .ansi then
    if ← options? inner ["OPTIONS"] then return true
  if ← known? (mysqlLike || sqliteLike) ["AS"] then
    condition inner
    unless ← keyword? "STORED" do discard <| keyword? "VIRTUAL"
    return true
  if ← known? (d == .ansi) ["IDENTITY"] then
    if ← atSymbol .leftParen then
      parens do
        discard signedNumber
        expectSymbol .comma
        discard signedNumber
    return true
  if sqliteLike then
    if ← keywords? ["ON", "CONFLICT"] then
      discard <| expectOneOf ["ROLLBACK", "ABORT", "FAIL", "IGNORE", "REPLACE"]
      return true
  return false

/-- Reads an option of a column, if one is next. -/
def columnOption? (inner : Level) : Parse Bool := do
  if ← plainColumnOption? inner then return true
  else specialColumnOption? inner

/-- Reads options of a column as long as one is next. -/
def columnOptions (inner : Level) : Parse Unit :=
  discard <| many do
    if ← columnOption? inner then return some () else return none

/-- Reads one more option of a column, which may have a name, if there is one. -/
def namedColumnOption? (inner : Level) : Parse (Option Unit) := do
  let d := inner.dialect
  if ← keyword? "CONSTRAINT" then
    discard name
    if ← columnOption? inner then return some ()
    else failHere "constraint details after CONSTRAINT <name>"
  else if ← columnOption? inner then return some ()
  else if d == .mysql || d == .ansi then after? "COLLATE" (discard <| objectNameIn d)
  else return none

/-! ## Columns -/

/-- Whether a column may go without a type at this token. -/
def typeIsOmitted (d : Dialect) : Parse Bool := do
  if d != .sqlite then return false
  match ← peekToken 0 with
  | some (.word w) =>
      return ["CONSTRAINT", "PRIMARY", "NOT", "UNIQUE", "CHECK", "DEFAULT", "COLLATE",
        "REFERENCES", "GENERATED", "AS"].contains w.keyword
  | _ => return true

/-- Reads the definition of a column. -/
def columnDefinition (inner : Level) : Parse Unit := do
  let d := inner.dialect
  discard name
  unless ← typeIsOmitted d do discard <| typeName d
  discard <| after? "COLLATE" (objectNameIn d)
  discard <| many (namedColumnOption? inner)

/-! ## Constraints of a table -/

/-- Reads the kind of an index after the word `USING`, and tells whether it is there. -/
def indexKind? : Parse Bool := do
  if ← keyword? "USING" then
    unless (← oneOf? ["BTREE", "HASH"]).isSome do failHere "index type \x7bBTREE | HASH\x7d"
    return true
  else return false

/-- Reads the columns of a constraint that is an index. Any word after the constraint's own is the
name of the index. -/
def indexedColumns (d : Dialect) : Parse Unit := do
  discard <| maybe name
  discard indexKind?
  discard nameGroup
  discard <| many do
    if ← indexKind? then return some ()
    else if ← keyword? "COMMENT" then return some (← discard <| stringLiteral d)
    else return none
  constraintTiming

/-- Reads whether rows with nulls are distinct, if it is said. -/
def distinctNulls : Parse Unit := do
  if ← keyword? "NULLS" then
    discard <| keyword? "NOT"
    expectKeyword "DISTINCT"

/-- Reads a reference to the rows of another table, after the words `FOREIGN KEY`. -/
def foreignKey (d : Dialect) : Parse Unit := do
  discard nameGroup
  expectKeyword "REFERENCES"
  discard <| objectNameIn d
  discard nameGroup
  referenceActions

/-- Reads a constraint that a word starts, where it starts one. The word is `none` in a constraint
without a name. -/
def constraintAfter? (inner : Level) (label : Option Word) (word : String) :
    Option (Parse Unit) :=
  let d := inner.dialect
  let mysqlLike := d == .mysql || d == .ansi
  match word with
  | "UNIQUE" => some do
      let kind ← oneOf? ["KEY", "INDEX"]
      if kind.isSome && !mysqlLike then failHere "`index_name` or `(column_name [, ...])`"
      distinctNulls
      indexedColumns d
  | "PRIMARY" => some do
      expectKeyword "KEY"
      indexedColumns d
  | "FOREIGN" => some do
      expectKeyword "KEY"
      foreignKey d
  | "CHECK" => some (condition inner)
  | "INDEX" | "KEY" =>
      if mysqlLike && label.isNone then some do
        unless ← atKeywords ["USING"] do discard <| maybe name
        discard indexKind?
        discard nameGroup
      else none
  | "FULLTEXT" | "SPATIAL" =>
      if mysqlLike && label.isNone then some do
        discard <| oneOf? ["KEY", "INDEX"]
        discard <| maybe name
        discard nameGroup
      else none
  | _ => none

/-- Fails at a token that starts no constraint after its name. The name itself is blamed where the
token starts a constraint that has none. -/
def noConstraint {α : Type} (d : Dialect) (label : Word) : Parse α := do
  let found ← next
  match found with
  | some ⟨.word w, position⟩ =>
      if (d == .mysql || d == .ansi) && ["FULLTEXT", "SPATIAL"].contains w.keyword then
        unexpected "FULLTEXT or SPATIAL option without constraint name"
          (some ⟨.word ⟨label.nameText, none⟩, position⟩)
      else unexpected "PRIMARY, UNIQUE, FOREIGN, or CHECK" found
  | _ => unexpected "PRIMARY, UNIQUE, FOREIGN, or CHECK" found

/-- Reads a constraint on a table, if one is next. -/
def tableConstraint? (inner : Level) : Parse Bool := do
  let label ← after? "CONSTRAINT" name
  match constraintAfter? inner label (← peekKeyword), label with
  | some rest, _ =>
      skip
      rest
      return true
  | none, some label => noConstraint inner.dialect label
  | none, none => return false

/-- Reads columns and constraints as far as the closing parenthesis. -/
def tableElements (inner : Level) : Nat → Parse Unit
  | 0 => return
  | fuel + 1 => do
      unless ← tableConstraint? inner do
        match ← peekToken 0 with
        | some (.word _) => columnDefinition inner
        | _ => failHere "column name or constraint definition"
      let comma ← symbol? .comma
      if ← atSymbol .rightParen then
        if comma then tableElements inner fuel else skip
      else if comma then tableElements inner fuel
      else failHere "',' or ')' after column definition"

/-- Reads columns and constraints in parentheses, if they are there. -/
def tableGroup (inner : Level) : Parse Unit := do
  if ← symbol? .leftParen then
    unless ← symbol? .rightParen do tableElements inner ((← remaining) + 1)

end TypedSql.Grammar
