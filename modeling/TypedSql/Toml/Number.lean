import TypedSql.Decimal
import TypedSql.Toml.Quoted

/-!
# Numbers of a TOML text

Integers of sixty-four bits in four bases, and floating point numbers, of which only the text shown
in messages is kept.
-/

namespace TypedSql.Toml

open Reader

/-- Decimals are written out in full. -/
def decimalStyle : Decimal.Style := ⟨fun _ => true, "inf", "NaN"⟩

/-- A digit of a class, or an underscore and such a digit. -/
def moreDigits (isDigit : Char → Bool) : Reader (List Char) := do
  return (← repeated digitGroup).flatten
where
  digitGroup : Reader (List Char) :=
    orTry (return [← charOf isDigit]) do
      let _ ← char '_'
      return [← expecting ["digit"] (commit (charOf isDigit))]

/-- Digits of a class, which single underscores may part. -/
def digits (isDigit : Char → Bool) : Reader (List Char) := do
  return (← charOf isDigit) :: (← moreDigits isDigit)

/-- A sign, if any: whether it is a minus. -/
def sign : Reader Bool := do
  return (← optional (charOf fun c => c == '+' || c == '-')) == some '-'

/-- A decimal integer with its sign. A zero in front stands alone. -/
def decimalInteger : Reader (Bool × List Char) :=
  labelled "integer" do
    let negative ← sign
    let digits ← orTry
      (do
        let first ← charOf fun c => '1' ≤ c && c ≤ '9'
        return first :: (← moreDigits Char.isDigit))
      (return [← charOf Char.isDigit])
    return (negative, digits)

/-- An integer of sixty-four bits. -/
def inRange (negative : Bool) (n : Nat) : Except Clash Int :=
  if negative then
    if n ≤ Nat.pow 2 63 then .ok (-(n : Int)) else .error .tooSmall
  else if n < Nat.pow 2 63 then .ok n else .error .tooLarge

/-- The digits of an integer in another base, after its lead. -/
def basedInteger (label : String) (lead : List Char) (base : Nat) (isDigit : Char → Bool) :
    Reader Int :=
  commit <| checked (labelled label do literal lead; commit (digits isDigit)) fun digits =>
    inRange false (numberOf base digits)

/-- An integer in any base. -/
def integer : Reader Int := do
  match (← get).take 2 with
  | ['0', 'x'] => basedInteger "hexadecimal integer" ['0', 'x'] 16 isHexDigit
  | ['0', 'o'] => basedInteger "octal integer" ['0', 'o'] 8 fun c => '0' ≤ c && c ≤ '7'
  | ['0', 'b'] => basedInteger "binary integer" ['0', 'b'] 2 fun c => c == '0' || c == '1'
  | _ => fun cs =>
      match decimalInteger cs with
      | .error fault => .error fault
      | .ok ((negative, digits), rest) =>
          match inRange negative (numberOf 10 digits) with
          | .ok n => .ok (n, rest)
          | .error clash => .error { Fault.ofClash cs clash with final := true }

/-- The exponent of a number: its sign and its digits. -/
def exponent : Reader (Bool × List Char) := do
  let _ ← charOf fun c => c == 'e' || c == 'E'
  let negative ← sign
  return (negative, ← commit (digits Char.isDigit))

/-- The places after the point. -/
def fraction : Reader (List Char) := do
  let _ ← char '.'
  expecting ["digit"] (commit (digits Char.isDigit))

/-- The floating point number nearest to a decimal. Beyond four hundred places more than the digits
have, all powers of ten give the same number. -/
def nearest (negative : Bool) (digits : List Char) (power : Int) : Float :=
  let n := numberOf 10 digits
  let x := Float.ofScientific n (power < 0) (min power.natAbs (digits.length + 400))
  if negative then -x else x

/-- A number with places after a point, an exponent, or both. One that is beyond the largest number
is refused. -/
def finiteFloat : Reader Float := fun cs =>
  let number : Reader Float := do
    let (negative, whole) ← decimalInteger
    let (places, power) ← orTry
      (do return ([], ← exponent))
      (do return (← fraction, (← optional exponent).getD (false, [])))
    let power := (numberOf 10 power.2 : Int) * (if power.1 then -1 else 1)
    return nearest negative (whole ++ places) (power - places.length)
  match number cs with
  | .ok (x, rest) =>
      if x == 1.0 / 0.0 then .error { Fault.bare cs with final := true } else .ok (x, rest)
  | result => result

/-- Infinity. -/
def infinity : Reader Float := do
  literal ['i', 'n', 'f']
  return 1.0 / 0.0

/-- What is not a number. -/
def notANumber : Reader Float := do
  literal ['n', 'a', 'n']
  return 0.0 / 0.0

/-- A floating point number: the text in which messages show it. -/
def float : Reader String :=
  labelled "floating-point number" do
    let x ← orTry finiteFloat do
      let negative ← sign
      let x ← orTry infinity notANumber
      return if negative then -x else x
    return Decimal.text decimalStyle x

end TypedSql.Toml
