import TypedSql.Grammar.Option

/-!
# Reading roles

Roles, the owners of objects, and the policies on the rows that a role may see or change.
-/

namespace TypedSql.Grammar

/-- Reads the owner of an object: a role that a keyword stands for, or the name of one. -/
def owner : Parse Unit := do
  if (← oneOf? ["CURRENT_USER", "CURRENT_ROLE", "SESSION_USER"]).isSome then return
  try discard name
  catch failure =>
    throw (.refused ("Expected: CURRENT_USER, CURRENT_ROLE, SESSION_USER or identifier after " ++
      "OWNER TO. " ++ failure.message) none)

/-! ## Roles -/

/-- The options of a role that are words, each with its opposite. -/
def roleFlags : List (String × String) :=
  [("LOGIN", "NOLOGIN"), ("INHERIT", "NOINHERIT"), ("BYPASSRLS", "NOBYPASSRLS"),
   ("CREATEDB", "NOCREATEDB"), ("CREATEROLE", "NOCREATEROLE"), ("SUPERUSER", "NOSUPERUSER"),
   ("REPLICATION", "NOREPLICATION")]

/-- The option that a word sets, with its opposite. -/
def roleFlag? (word : String) : Option (String × String) :=
  roleFlags.find? fun (on, off) => word == on || word == off

/-- Reads the value of a password, which may be missing. -/
def password : Parse Unit := do
  unless ← keyword? "NULL" do discard constant

/-- Reads the words of an option of a role that follow its first word, and gives the name of the
option with what reads its value. The value is left. -/
def valuedRoleOption? (word : String) : Parse (Option (String × Parse Unit)) := do
  let members : Parse Unit := discard <| commaSeparated name
  match word with
  | "PASSWORD" => return some ("PASSWORD", password)
  | "CONNECTION" =>
      expectKeyword "LIMIT"
      return some ("CONNECTION LIMIT", discard numberConstant)
  | "VALID" =>
      expectKeyword "UNTIL"
      return some ("VALID UNTIL", discard constant)
  | "IN" =>
      match ← oneOf? ["ROLE", "GROUP"] with
      | some kind => return some ("IN " ++ kind, members)
      | none => failHere "ROLE or GROUP after IN"
  | "ROLE" | "USER" | "ADMIN" => return some (word, members)
  | _ => return none

/-- Reads an option of a role to be created, if one is next and not read before. -/
def roleOption? (seen : List String) : Parse (Option String) := do
  let position ← here
  let once (label : String) (rest : Parse Unit) : Parse (Option String) := do
    if seen.contains label then throw (.refused ("Found multiple " ++ label) position)
    rest
    return some label
  let word ← peekKeyword
  match roleFlag? word with
  | some (on, off) =>
      skip
      once (on ++ " or " ++ off) (pure ())
  | none =>
      if ["PASSWORD", "CONNECTION", "VALID", "IN", "ROLE", "USER", "ADMIN"].contains word then
        skip
        match ← valuedRoleOption? word with
        | some (label, rest) => once label rest
        | none => return none
      else return none

/-- Reads roles to be created, after the word `ROLE`. -/
def createRole (d : Dialect) : Parse Unit := do
  discard ifNotExists?
  discard <| commaSeparated (objectNameIn d)
  discard <| keyword? "WITH"
  if d == .postgres then eachOnce roleOption?

/-- Reads an option that a role is altered to have. -/
def alteredRoleOption : Parse Unit := do
  let word ← peekKeyword
  if (roleFlag? word).isSome then skip
  else if ["PASSWORD", "CONNECTION", "VALID"].contains word then
    skip
    match ← valuedRoleOption? word with
    | some (_, rest) => rest
    | none => return
  else failHere "option"

/-- Reads a setting of a role, after the word `SET`. -/
def roleSetting (inner : Level) : Parse Unit := do
  discard <| objectNameIn inner.dialect
  if ← keywords? ["FROM", "CURRENT"] then return
  let signed ← if ← symbol? .equal then pure true else keyword? "TO"
  unless signed do failHere "'TO' or '=' or 'FROM CURRENT'"
  unless ← keyword? "DEFAULT" do
    if (← attempt (inner.expr 0)).isNone then failHere "config value"

/-- Reads how a role is altered. -/
def alterRole (inner : Level) : Parse Unit := do
  let d := inner.dialect
  unless d == .postgres do
    throw (.refused "ALTER ROLE is only support for PostgreSqlDialect, MsSqlDialect" none)
  discard name
  discard <| afterAll? ["IN", "DATABASE"] (attempt (objectNameIn d))
  if ← keyword? "RENAME" then
    unless ← keyword? "TO" do failHere "TO after RENAME"
    discard name
  else if ← keyword? "SET" then roleSetting inner
  else if ← keyword? "RESET" then
    unless ← keyword? "ALL" do discard <| objectNameIn d
  else
    discard <| keyword? "WITH"
    if (← many (maybe alteredRoleOption)).isEmpty then failHere "option"

/-! ## Policies -/

/-- Reads the roles that a policy is for, and the conditions on rows, each if it is said. -/
def policyConditions (inner : Level) : Parse Unit := do
  discard <| after? "TO" (commaSeparated owner)
  discard <| after? "USING" (parens (inner.expr 0))
  discard <| afterAll? ["WITH", "CHECK"] (parens (inner.expr 0))

/-- Reads a policy to be created, after the word `POLICY`. -/
def createPolicy (inner : Level) : Parse Unit := do
  discard name
  expectKeyword "ON"
  discard <| objectNameIn inner.dialect
  discard <| after? "AS" (expectOneOf ["PERMISSIVE", "RESTRICTIVE"])
  discard <| after? "FOR" (expectOneOf ["ALL", "SELECT", "INSERT", "UPDATE", "DELETE"])
  policyConditions inner

/-- Reads how a policy is altered. -/
def alterPolicy (inner : Level) : Parse Unit := do
  discard name
  expectKeyword "ON"
  discard <| objectNameIn inner.dialect
  if ← keyword? "RENAME" then
    expectKeyword "TO"
    discard name
  else policyConditions inner

end TypedSql.Grammar
