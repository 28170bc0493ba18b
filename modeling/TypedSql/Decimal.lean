import TypedSql.Decimal.Shortest

/-!
# Decimal texts of floating point numbers

Floating point numbers show only in messages about values of the wrong type. Each data format has a
style of its own for them.
-/

namespace TypedSql.Decimal

/-- How a floating point number is written. -/
structure Style where
  /-- The power of ten of the first digit for which all places are written out. -/
  positional : Int → Bool
  infinity : String
  notANumber : String

/-- The digits of a number and the power of ten of its first digit. -/
def scientific (n : Nat) (place : Int) : List Char × Int :=
  let digits := Nat.toDigits 10 n
  (digits, (digits.length : Int) - 1 + place)

/-- All places written out, with at least one on each side of the point. -/
def positionalText (digits : List Char) (power : Int) : List Char :=
  if power < 0 then
    ['0', '.'] ++ List.replicate (-power - 1).toNat '0' ++ digits
  else
    let whole := power.toNat + 1
    let filled := digits ++ List.replicate (whole - digits.length) '0'
    let fraction := filled.drop whole
    filled.take whole ++ '.' :: (if fraction.isEmpty then ['0'] else fraction)

/-- One digit before the point, and the power of ten with its sign and at least two digits. -/
def scientificText (digits : List Char) (power : Int) : List Char :=
  let fraction := digits.drop 1
  let exponent := Nat.toDigits 10 power.natAbs
  digits.take 1 ++ (if fraction.isEmpty then [] else '.' :: fraction) ++
    ['e', if power < 0 then '-' else '+'] ++
    List.replicate (2 - exponent.length) '0' ++ exponent

/-- The shortest text that reads back as the number. -/
def text (style : Style) (x : Float) : String :=
  let bits := x.toBits.toNat
  let sign := if bits < Nat.pow 2 63 then [] else ['-']
  let magnitude := bits % Nat.pow 2 63
  if magnitude = 0 then String.ofList (sign ++ ['0', '.', '0'])
  else if magnitude = 2047 * Nat.pow 2 52 then String.ofList sign ++ style.infinity
  else if 2047 * Nat.pow 2 52 < magnitude then style.notANumber
  else
    let (n, place) := (Binary.ofBits magnitude).shortest
    let (digits, power) := scientific n place
    String.ofList <| sign ++
      (if style.positional power then positionalText digits power
        else scientificText digits power)

end TypedSql.Decimal
