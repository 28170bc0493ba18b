/-!
# The shortest decimal of a binary number

The shortest decimal that still reads back as a given binary floating point number. All arithmetic
is exact: a number, the ends of the interval that rounds to it and the points of a decimal grid are
compared as multiples of one common unit.
-/

namespace TypedSql.Decimal

/-- The positive number `mantissa * 2 ^ exponent`. `narrowBelow` tells that the next smaller number
is only half as far away as the next larger one. -/
structure Binary where
  mantissa : Nat
  exponent : Int
  narrowBelow : Bool
  deriving DecidableEq, Repr

namespace Binary

/-- The finite positive number with the given bits: eleven of exponent over fifty-two of
mantissa. -/
def ofBits (bits : Nat) : Binary :=
  let fraction : Nat := bits % Nat.pow 2 52
  let power : Nat := bits / Nat.pow 2 52 % Nat.pow 2 11
  if power = 0 then ⟨fraction, -1074, false⟩
  else ⟨Nat.pow 2 52 + fraction, (power : Int) - 1075, fraction == 0 && power != 1⟩

/-- A quarter of the number's last binary place, as a multiple of the unit that is shared with the
decimal grid of step `10 ^ place`. -/
def quarter (b : Binary) (place : Int) : Nat :=
  Nat.pow 2 (b.exponent - 2).toNat * Nat.pow 10 (-place).toNat

/-- The step of the decimal grid in the same unit. -/
def step (b : Binary) (place : Int) : Nat :=
  Nat.pow 2 (2 - b.exponent).toNat * Nat.pow 10 place.toNat

/-- Whether `n * 10 ^ place` reads back as the number. The ends of the interval belong to the number
with an even mantissa. -/
def readsBack (b : Binary) (place : Int) (n : Nat) : Bool :=
  let quarter := b.quarter place
  let point := n * b.step place
  let low := (4 * b.mantissa - (if b.narrowBelow then 1 else 2)) * quarter
  let high := (4 * b.mantissa + 2) * quarter
  if b.mantissa % 2 = 0 then low ≤ point && point ≤ high else low < point && point < high

/-- The point of a decimal grid next to the number that reads back as it; of two, the nearer. -/
def onGrid? (b : Binary) (place : Int) : Option Nat :=
  let exact := 4 * b.mantissa * b.quarter place
  let step := b.step place
  let below := exact / step
  match b.readsBack place below, b.readsBack place (below + 1) with
  | true, true =>
      some (if 2 * (exact - below * step) ≤ step then below else below + 1)
  | true, false => some below
  | false, true => some (below + 1)
  | false, false => none

/-- Searches the grids from `10 ^ place` downwards, `count` of them. -/
def search (b : Binary) : Nat → Int → Nat × Int
  | 0, place => (b.mantissa, place)
  | count + 1, place =>
      match b.onGrid? place with
      | some n => (n, place)
      | none => search b count (place - 1)

/-- The digits and the place of the last digit: the coarsest decimal grid that has a point which
reads back as the number. -/
def shortest (b : Binary) : Nat × Int := b.search 640 309

end Binary

end TypedSql.Decimal
