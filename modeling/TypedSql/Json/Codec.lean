import TypedSql.Json.Value

/-!
# Codecs

A codec says how values of one type are written as JSON and read back, from a text or from a value
that was read before. Records are built from codecs of their fields: as an object, in which unknown
keys are passed over and known keys may come once, or as a list of the fields in order.
-/

namespace TypedSql.Json

open Reader

/-- A value as messages name it. -/
def found : Json → Found
  | .null => .null
  | .flag value => .flag value
  | .integer value => .integer value
  | .decimal shown => .decimal shown
  | .text value => .text value
  | .list _ => .list
  | .object _ => .map

/-- Fails because the value at hand is not what is expected. Lists and objects are not entered. -/
def refuse {α : Type} (expected : String) : Reader α := do
  match ← peekValue with
  | '[' => fail (.mismatch (.wrongType .list expected))
  | '\x7b' => fail (.mismatch (.wrongType .map expected))
  | c => do fail (.mismatch (.wrongType (← scalar c).found expected))

/-- The mismatch of a value that is not what is expected. -/
def refused {α : Type} (expected : String) (json : Json) : Except Mismatch α :=
  .error (.wrongType json.found expected)

/-- How values of a type are written and read. -/
structure Codec (α : Type) where
  /-- Reads a value off a text. -/
  read : Reader α
  /-- Takes a value that was read before. -/
  ofJson : Json → Except Mismatch α
  /-- The form in which a value is written. -/
  toJson : α → Json

namespace Codec

variable {α β σ τ : Type}

/-- Reads a text that holds one value. -/
def ofText (codec : Codec α) (text : String) : Except TextError α := readAll codec.read text

/-- The same values under another type. -/
def map (codec : Codec α) (forth : α → β) (back : β → α) : Codec β where
  read := forth <$> codec.read
  ofJson json := forth <$> codec.ofJson json
  toJson value := codec.toJson (back value)

/-- Texts; `expected` names them in messages. -/
def textNamed (expected : String) : Codec String where
  read := do
    match ← peekValue with
    | '\x22' => string
    | _ => refuse expected
  ofJson
    | .text value => .ok value
    | json => refused expected json
  toJson := .text

/-- Texts. -/
def text : Codec String := textNamed "a string"

/-- Flags. -/
def flag : Codec Bool where
  read := do
    match ← peekValue with
    | 't' => drop; word ['r', 'u', 'e']; return true
    | 'f' => drop; word ['a', 'l', 's', 'e']; return false
    | _ => refuse "a boolean"
  ofJson
    | .flag value => .ok value
    | json => refused "a boolean" json
  toJson := .flag

/-- The natural number that an integer is, if it is within a limit. -/
def natural (limit : Nat) (expected : String) : Json → Except Mismatch Nat
  | .integer n =>
      if 0 ≤ n ∧ n.toNat ≤ limit then .ok n.toNat else .error (.wrongValue (.integer n) expected)
  | json => refused expected json

/-- Natural numbers up to a limit; `expected` names them in messages. -/
def count (limit : Nat) (expected : String) : Codec Nat where
  read := do
    let c ← peekValue
    if c == '-' || c.isDigit then
      match natural limit expected (← number) with
      | .ok n => return n
      | .error m => fail (.mismatch m)
    else refuse expected
  ofJson := natural limit expected
  toJson := .natural

/-- The null value. -/
def unit : Codec Unit where
  read := do
    match ← peekValue with
    | 'n' => drop; word ['u', 'l', 'l']
    | _ => refuse "unit"
  ofJson
    | .null => .ok ()
    | json => refused "unit" json
  toJson _ := .null

/-- The choice of a given name. -/
def choiceNamed (choices : List α) (name : α → String) (given : String) : Except Mismatch α :=
  match choices.find? fun choice => name choice == given with
  | some choice => .ok choice
  | none => .error (.unknownVariant given (choices.map name))

/-- One of several named values, written as its name. An object with the name as its only key and
null as its value is read as well. -/
def choice (choices : List α) (name : α → String) : Codec α where
  read := do
    let named (given : String) : Reader α :=
      match choiceNamed choices name given with
      | .ok choice => return choice
      | .error m => fail (.mismatch m)
    match ← peekValue with
    | '\x22' => named (← string)
    | '\x7b' =>
        drop
        let choice ← do
          match ← peekValue with
          | '\x22' => named (← string)
          | _ => refuse "variant identifier"
        colon
        unit.read
        match ← peekToken with
        | some '\x7d' => drop
        | some _ => fail .expectedValue
        | none => fail .endInObject
        return choice
    | _ => failAhead .expectedValue
  ofJson
    | .text given => choiceNamed choices name given
    | .object [(given, value)] => do
        let choice ← choiceNamed choices name given
        unit.ofJson value
        return choice
    | .object _ => .error (.wrongValue .map "map with a single key")
    | json => refused "string or map" json
  toJson choice := .text (name choice)

/-- A value or null. -/
def optional (codec : Codec α) : Codec (Option α) where
  read := do
    match ← peekToken with
    | some 'n' => drop; word ['u', 'l', 'l']; return none
    | _ => return some (← codec.read)
  ofJson
    | .null => .ok none
    | json => some <$> codec.ofJson json
  toJson
    | none => .null
    | some value => codec.toJson value

/-- A list of values. -/
def list (codec : Codec α) : Codec (List α) where
  read := do
    match ← peekValue with
    | '[' => inList (items codec.read)
    | _ => refuse "a sequence"
  ofJson
    | .list items => items.mapM codec.ofJson
    | json => refused "a sequence" json
  toJson values := .list (values.map codec.toJson)

/-! ## Records -/

/-- Where a field may be left out, and the value that it then has. -/
inductive Absence (α : Type)
  /-- The field has to be there. -/
  | nowhere
  /-- The field may be left out of an object. -/
  | inObject (value : α)
  /-- The field may be left out of an object, and of a list that ends early. -/
  | anywhere (value : α)

/-- A field of a record. -/
structure FieldCodec (α : Type) where
  key : String
  codec : Codec α
  absence : Absence α
  /-- The values for which nothing is written. -/
  unwritten : α → Bool

/-- A field that has to be there. -/
def required (key : String) (codec : Codec α) : FieldCodec α :=
  ⟨key, codec, .nowhere, fun _ => false⟩

/-- A field that may be missing, which is then written as null. -/
def nullable (key : String) (codec : Codec α) : FieldCodec (Option α) :=
  ⟨key, codec.optional, .inObject none, fun _ => false⟩

/-- A field that may be missing, which is then not written. -/
def omittable (key : String) (codec : Codec α) : FieldCodec (Option α) :=
  ⟨key, codec.optional, .anywhere none, Option.isNone⟩

/-- A field with a default value. -/
def defaulted (key : String) (codec : Codec α) (value : α) : FieldCodec α :=
  ⟨key, codec, .anywhere value, fun _ => false⟩

/-- The fields of a record in order. `α` is the tuple of their values, and `σ` holds the values that
have been seen so far. -/
inductive Fields : (α σ : Type) → Type 1
  | nil : Fields Unit Unit
  | cons {α β σ : Type} (field : FieldCodec α) (rest : Fields β σ) : Fields (α × β) (Option α × σ)

/-- What a key stands for among the fields of a record. -/
inductive Slot (σ : Type)
  | unknown
  | taken
  | free (read : Reader σ) (ofJson : Json → Except Mismatch σ)

namespace Fields

/-- Nothing has been seen. -/
def unseen : {α σ : Type} → Fields α σ → σ
  | _, _, .nil => ()
  | _, _, .cons _ rest => (none, rest.unseen)

/-- The keys in order. -/
def keys : {α σ : Type} → Fields α σ → List String
  | _, _, .nil => []
  | _, _, .cons field rest => field.key :: rest.keys

/-- What a key stands for, when some fields have been seen. -/
def slot : {α σ : Type} → Fields α σ → String → σ → Slot σ
  | _, _, .nil, _, _ => .unknown
  | _, _, .cons field rest, key, (seen, others) =>
      if field.key = key then
        if seen.isSome then .taken
        else
          .free (do return (some (← field.codec.read), others))
            (fun json => do return (some (← field.codec.ofJson json), others))
      else
        match rest.slot key others with
        | .unknown => .unknown
        | .taken => .taken
        | .free read ofJson =>
            .free (do return (seen, ← read)) (fun json => do return (seen, ← ofJson json))

/-- The value of a field that was not seen in an object. -/
def absent (field : FieldCodec α) : Except Mismatch α :=
  match field.absence with
  | .nowhere => .error (.missingField field.key)
  | .inObject value | .anywhere value => .ok value

/-- The values of all fields once an object has ended. The first one that is missing is reported. -/
def finish : {α σ : Type} → Fields α σ → σ → Except Mismatch α
  | _, _, .nil, _ => .ok ()
  | _, _, .cons field rest, (seen, others) => do
      let value ← match seen with
        | some value => .ok value
        | none => absent field
      return (value, ← rest.finish others)

/-- The value of a field at some index that a list does not reach. -/
def beyond (field : FieldCodec α) (index : Nat) (whole : String) : Except Mismatch α :=
  match field.absence with
  | .nowhere | .inObject _ => .error (.wrongLength index whole)
  | .anywhere value => .ok value

/-- The fields as the items of a list, from some index on. `whole` names the record in messages. -/
def readItems (whole : String) : {α σ : Type} → Fields α σ → Nat → Reader α
  | _, _, .nil, _ => return ()
  | _, _, .cons field rest, index => do
      let value ←
        if ← hasItem (index == 0) then field.codec.read
        else
          match beyond field index whole with
          | .ok value => pure value
          | .error m => failUnplaced (.mismatch m)
      return (value, ← rest.readItems whole (index + 1))

/-- The fields as the items of a list that was read before. -/
def ofItems (whole : String) : {α σ : Type} → Fields α σ → Nat → List Json → Except Mismatch α
  | _, _, .nil, _, [] => .ok ()
  | _, _, .nil, index, more => .error (.wrongLength (index + more.length) "fewer elements in array")
  | _, _, .cons field rest, index, [] => do
      let value ← beyond field index whole
      return (value, ← rest.ofItems whole (index + 1) [])
  | _, _, .cons field rest, index, json :: more => do
      let value ← field.codec.ofJson json
      return (value, ← rest.ofItems whole (index + 1) more)

/-- One entry of an object, after its key. -/
def readEntry (fields : Fields α σ) (key : String) (seen : σ) : Reader σ :=
  match fields.slot key seen with
  | .unknown => do
      colon
      skip
      return seen
  | .taken => failUnplaced (.mismatch (.duplicateField key))
  | .free read _ => do
      colon
      read

/-- One entry of an object that was read before. -/
def ofEntry (fields : Fields α σ) (seen : σ) (entry : String × Json) : Except Mismatch σ :=
  match fields.slot entry.1 seen with
  | .unknown => .ok seen
  | .taken => .error (.duplicateField entry.1)
  | .free _ ofJson => ofJson entry.2

/-- The entries that are written. -/
def toEntries : {α σ : Type} → Fields α σ → α → List (String × Json)
  | _, _, .nil, _ => []
  | _, _, .cons field rest, (value, others) =>
      if field.unwritten value then rest.toEntries others
      else (field.key, field.codec.toJson value) :: rest.toEntries others

end Fields

/-- A record with its name and fields. -/
def record (name : String) (fields : Fields α σ) : Codec α where
  read := do
    match ← peekValue with
    | '[' => inList (fields.readItems (whole fields) 0)
    | '\x7b' =>
        inObject do
          match fields.finish (← entries fields.readEntry fields.unseen) with
          | .ok value => return value
          | .error m => failUnplaced (.mismatch m)
    | _ => refuse expected
  ofJson
    | .list items => fields.ofItems (whole fields) 0 items
    | .object entries => do fields.finish (← entries.foldlM fields.ofEntry fields.unseen)
    | json => refused expected json
  toJson value := .object (fields.toEntries value)
where
  expected : String := s!"struct {name}"
  whole (fields : Fields α σ) : String :=
    let count := fields.keys.length
    s!"struct {name} with {count} element" ++ (if count = 1 then "" else "s")

end Codec

end TypedSql.Json
