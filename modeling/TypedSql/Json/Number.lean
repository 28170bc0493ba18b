import TypedSql.Decimal
import TypedSql.Json.Reader

/-!
# Reading JSON numbers

Integers are exact as far as sixty-four bits reach. All other numbers become floating point numbers,
of which only the text is kept: a decimal never fits a record and shows only in messages.
-/

namespace TypedSql.Json

open Reader

/-- Decimals are written out from `0.00001` up to sixteen digits before the point. -/
def decimalStyle : Decimal.Style := ⟨fun power => -5 ≤ power && power < 16, "inf", "NaN"⟩

/-- The largest natural number that is read exactly. -/
def maxNatural : Nat := Nat.pow 2 64 - 1

/-- The largest power of ten that is read from an exponent. -/
def maxExponent : Nat := Nat.pow 2 31 - 1

/-- The value of a digit. -/
def digitValue (c : Char) : Nat := c.toNat - '0'.toNat

/-- Takes leading digits into `n` as long as the result stays within `limit`. The rest starts with a
digit exactly if one did not fit. -/
def takeDigits (limit n : Nat) : List Char → Nat × List Char
  | [] => (n, [])
  | c :: rest =>
      let m := n * 10 + digitValue c
      if c.isDigit && m ≤ limit then takeDigits limit m rest else (n, c :: rest)

/-- Takes all digits and counts them. -/
def countDigits : Reader Nat := do
  let digits := (← get).takeWhile Char.isDigit
  modify (List.dropWhile Char.isDigit)
  return digits.length

/-- Takes digits within a limit, and tells how many. -/
def digitsWithin (limit n : Nat) : Reader (Nat × Nat) := do
  let before ← get
  let (n, rest) := takeDigits limit n before
  set rest
  return (n, before.length - rest.length)

/-- The floating point number nearest to `significand`, scaled by the one nearest to a power of ten.
`none` where the result is beyond the largest number. Powers beyond 308 are taken in steps; `fuel`
bounds their number. -/
def scale? : Nat → Float → Int → Option Float
  | 0, x, _ => some x
  | fuel + 1, x, power =>
      if power.natAbs ≤ 308 then
        let factor := Float.ofScientific 1 false power.natAbs
        if power < 0 then some (x / factor)
        else if (x * factor).isInf then none
        else some (x * factor)
      else if x == 0.0 then some x
      else if 0 ≤ power then none
      else scale? fuel (x / Float.ofScientific 1 false 308) (power + 308)

/-- The decimal `significand * 10 ^ power` with its sign. -/
def decimalOf (negative : Bool) (significand : Nat) (power : Int) : Reader Json :=
  match scale? (power.natAbs + 1) significand.toUInt64.toFloat power with
  | none => fail .numberTooLarge
  | some x => return .decimal (Decimal.text decimalStyle (if negative then -x else x))

/-- The exponent of a number, of which the letter has been seen. -/
def exponent (negative : Bool) (significand : Nat) (power : Int) : Reader Json := do
  drop
  let sign ← peek
  if sign == some '+' || sign == some '-' then drop
  match ← peek with
  | none => fail .endInValue
  | some c =>
      if !c.isDigit then failAhead .invalidNumber
      else
        let (n, _) ← digitsWithin maxExponent 0
        match ← peek with
        | some c =>
            if c.isDigit then
              drop
              if significand ≠ 0 ∧ sign ≠ some '-' then fail .numberTooLarge
              else
                let _ ← countDigits
                decimalOf negative 0 0
            else
              decimalOf negative significand (if sign == some '-' then power - n else power + n)
        | none =>
            decimalOf negative significand (if sign == some '-' then power - n else power + n)

/-- What follows the digits of a decimal: an exponent or nothing. -/
def decimalEnd (negative : Bool) (significand : Nat) (power : Int) : Reader Json := do
  match ← peek with
  | some 'e' | some 'E' => exponent negative significand power
  | _ => decimalOf negative significand power

/-- The places after the point, which has been seen. Places beyond the exact ones are dropped. -/
def fraction (negative : Bool) (significand : Nat) (power : Int) : Reader Json := do
  drop
  match ← peek with
  | none => failAhead .endInValue
  | some c =>
      if !c.isDigit then failAhead .invalidNumber
      else
        let (significand, count) ← digitsWithin maxNatural significand
        let _ ← countDigits
        decimalEnd negative significand (power - count)

/-- An integer: a natural number below 2 ^ 64 or a negative one down to -2 ^ 63. Others become
decimals, and so does negative zero. -/
def integerOf (negative : Bool) (significand : Nat) : Reader Json :=
  if !negative then return .integer significand
  else if 0 < significand ∧ significand ≤ Nat.pow 2 63 then return .integer (-significand)
  else return .decimal (Decimal.text decimalStyle (-significand.toUInt64.toFloat))

/-- What follows the digits before the point. -/
def numberEnd (negative : Bool) (significand : Nat) : Reader Json := do
  match ← peek with
  | some '.' => fraction negative significand 0
  | some 'e' | some 'E' => exponent negative significand 0
  | _ => integerOf negative significand

/-- A number without its sign. -/
def unsigned (negative : Bool) : Reader Json := do
  match ← peek with
  | none => fail .endInValue
  | some '0' => do
      drop
      match ← peek with
      | some c => if c.isDigit then failAhead .invalidNumber else numberEnd negative 0
      | none => numberEnd negative 0
  | some c =>
      if !c.isDigit then failAhead .invalidNumber
      else
        let (significand, _) ← digitsWithin maxNatural 0
        match ← countDigits with
        | 0 => numberEnd negative significand
        | beyond =>
            match ← peek with
            | some '.' => fraction negative significand beyond
            | _ => decimalEnd negative significand beyond

/-- A number of which the first character has been seen. -/
def number : Reader Json := do
  match ← peek with
  | some '-' => do
      drop
      unsigned true
  | _ => unsigned false

end TypedSql.Json
