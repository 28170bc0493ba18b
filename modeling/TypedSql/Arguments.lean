import TypedSql.Path

/-!
# Command line arguments

The commands of the program and the options they take. An option may stand anywhere after its
command; its value follows it as the next argument, behind an equals sign, or directly after a short
name. Short names without a value may be joined.
-/

namespace TypedSql

/-- What is to be done. -/
inductive Command
  | generate (paths : List Path) (schema outDir report : Option Path)
  | inspect (file : Path) (schema : Option Path)
  | init
  | version
  deriving DecidableEq, Repr, Inhabited

/-- A command with the options that all commands take. -/
structure Invocation where
  config : Option Path
  verbose : Bool
  command : Command
  deriving DecidableEq, Repr, Inhabited

namespace Arguments

/-- The options. -/
inductive Opt
  | config
  | verbose
  | schema
  | outDir
  | report
  | version
  deriving DecidableEq, Repr, Inhabited

/-- The names of the commands. -/
inductive CommandName
  | generate
  | inspect
  | init
  deriving DecidableEq, Repr, Inhabited

/-- Why arguments are refused. -/
inductive UsageError
  | unknownArgument (text : String)
  | unknownCommand (text : String)
  | missingValue (text : String)
  | unwantedValue (text : String)
  | repeated (text : String)
  | missingCommand
  | missingFile
  deriving DecidableEq, Repr, Inhabited

/-- The wording of a refusal. -/
def UsageError.message : UsageError → String
  | unknownArgument text => s!"error: unexpected argument '{text}' found"
  | unknownCommand text => s!"error: unrecognized subcommand '{text}'"
  | missingValue text => s!"error: a value is required for '{text}' but none was supplied"
  | unwantedValue text => s!"error: unexpected value for '{text}' found; no more were expected"
  | repeated text => s!"error: the argument '{text}' cannot be used multiple times"
  | missingCommand => "error: a subcommand is required but one was not provided"
  | missingFile => "error: the following required arguments were not provided: <FILE>"

/-- The command of a name. -/
def commandNamed? : String → Option CommandName
  | "generate" => some .generate
  | "inspect" => some .inspect
  | "init" => some .init
  | _ => none

/-- The option of a long name. -/
def longOption? (command : Option CommandName) : String → Option Opt
  | "config" => some .config
  | "verbose" => some .verbose
  | "version" => if command.isNone then some .version else none
  | "schema" => if command = some .generate ∨ command = some .inspect then some .schema else none
  | "out-dir" => if command = some .generate then some .outDir else none
  | "report" => if command = some .generate then some .report else none
  | _ => none

/-- The option of a short name. -/
def shortOption? (command : Option CommandName) : Char → Option Opt
  | 'c' => some .config
  | 'v' => some .verbose
  | 'V' => if command.isNone then some .version else none
  | 's' => if command = some .generate ∨ command = some .inspect then some .schema else none
  | 'o' => if command = some .generate then some .outDir else none
  | 'r' => if command = some .generate then some .report else none
  | _ => none

/-- Whether an option has a value. -/
def Opt.takesValue : Opt → Bool
  | verbose | version => false
  | _ => true

/-- What has been read: the command, its paths, and the options with their values. -/
structure Read where
  command : Option CommandName
  paths : List Path
  options : List (Opt × String)
  deriving DecidableEq, Repr, Inhabited

/-- Stores an option, which may be given once. -/
def Read.store (r : Read) (shown : String) (option : Opt) (value : String) :
    Except UsageError Read :=
  if r.options.any fun given => given.1 == option then .error (.repeated shown)
  else if option.takesValue && value.isEmpty then .error (.missingValue shown)
  else .ok { r with options := r.options ++ [(option, value)] }

/-- Stores an argument that is no option. -/
def Read.storePlain (r : Read) (text : String) : Except UsageError Read :=
  match r.command with
  | none =>
      match commandNamed? text with
      | some name => .ok { r with command := some name }
      | none => .error (.unknownCommand text)
  | some .generate =>
      if text.isEmpty then .error (.missingValue "[PATHS]...")
      else .ok { r with paths := r.paths ++ [⟨text⟩] }
  | some .inspect =>
      if text.isEmpty then .error (.missingValue "<FILE>")
      else if r.paths.isEmpty then .ok { r with paths := [⟨text⟩] }
      else .error (.unknownArgument text)
  | some .init => .error (.unknownArgument text)

/-- The short options joined in one argument. What is left after an option that takes a value is its
value; if nothing is left, the option itself is returned and waits for the next argument. -/
def Read.storeShort (r : Read) : List Char → Except UsageError (Read × Option (String × Opt))
  | [] => .ok (r, none)
  | c :: rest =>
      let shown := String.ofList ['-', c]
      match shortOption? r.command c with
      | none => .error (.unknownArgument shown)
      | some option =>
          if option.takesValue then
            match rest with
            | [] => .ok (r, some (shown, option))
            | '=' :: value => do return (← r.store shown option (String.ofList value), none)
            | value => do return (← r.store shown option (String.ofList value), none)
          else do
            let r ← r.store shown option ""
            match rest with
            | '=' :: _ => .error (.unwantedValue shown)
            | rest => r.storeShort rest

/-- Cuts a text at its first equals sign. -/
def cutValue (cs : List Char) : String × Option String :=
  let name := String.ofList (cs.takeWhile (· ≠ '='))
  match cs.dropWhile (· ≠ '=') with
  | [] => (name, none)
  | _ :: value => (name, some (String.ofList value))

/-- Reads arguments one after another. `waiting` is an option whose value is the next argument, and
`plain` tells that no more options follow. -/
def readAll (r : Read) (waiting : Option (String × Opt)) (plain : Bool) :
    List String → Except UsageError Read
  | [] =>
      match waiting with
      | none => .ok r
      | some (shown, _) => .error (.missingValue shown)
  | text :: rest =>
      match waiting with
      | some (shown, option) =>
          if text.toList.head? = some '-' ∧ text ≠ "-" then .error (.missingValue shown)
          else do readAll (← r.store shown option text) none plain rest
      | none =>
          if plain then do readAll (← r.storePlain text) none plain rest
          else
            match text.toList with
            | ['-', '-'] => readAll r none true rest
            | '-' :: '-' :: name =>
                let (name, value) := cutValue name
                match longOption? r.command name with
                | none => .error (.unknownArgument text)
                | some option =>
                    match option.takesValue, value with
                    | true, some value => do readAll (← r.store text option value) none plain rest
                    | true, none => readAll r (some (text, option)) plain rest
                    | false, none => do readAll (← r.store text option "") none plain rest
                    | false, some _ => .error (.unwantedValue text)
            | '-' :: c :: more => do
                let (r, waiting) ← r.storeShort (c :: more)
                readAll r waiting plain rest
            | _ => do readAll (← r.storePlain text) none plain rest

/-- The value of an option as a path. -/
def Read.path? (r : Read) (option : Opt) : Option Path :=
  (r.options.lookup option).map Path.mk

/-- What the arguments of the program ask for. -/
def parse (arguments : List String) : Except UsageError Invocation := do
  let r ← readAll ⟨none, [], []⟩ none false arguments
  let given (option : Opt) : Bool := (r.options.lookup option).isSome
  let command ← match r.command with
    | none => if given .version then pure .version else throw .missingCommand
    | some .generate =>
        pure (.generate r.paths (r.path? .schema) (r.path? .outDir) (r.path? .report))
    | some .inspect =>
        match r.paths with
        | file :: _ => pure (.inspect file (r.path? .schema))
        | [] => throw .missingFile
    | some .init => pure .init
  return ⟨r.path? .config, given .verbose, command⟩

end Arguments

end TypedSql
