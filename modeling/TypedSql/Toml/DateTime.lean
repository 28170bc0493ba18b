import TypedSql.Toml.Quoted

/-!
# Dates and times of a TOML text

Their values are never used; what counts is which texts are dates or times, and where a text that
starts like one goes wrong.
-/

namespace TypedSql.Toml

open Reader

/-- A given number of digits within bounds. -/
def digitsBetween (count low high : Nat) : Reader Nat :=
  let digits : Reader Nat := fun cs =>
    let digits := (cs.take count).takeWhile Char.isDigit
    if digits.length = count then .ok (numberOf 10 digits, cs.drop count) else .error (.bare cs)
  checked digits fun n => if low ≤ n ∧ n ≤ high then .ok n else .error .outOfRange

/-- The number of days of a month. -/
def daysOf (year month : Nat) : Nat :=
  if month = 2 then
    if year % 4 = 0 ∧ (year % 100 ≠ 0 ∨ year % 400 = 0) then 29 else 28
  else if month = 4 ∨ month = 6 ∨ month = 9 ∨ month = 11 then 30
  else 31

/-- A date. After the year and a dash nothing else can be meant. -/
def fullDate : Reader Unit := do
  let year ← digitsBetween 4 0 9999
  let _ ← char '-'
  commit do
    let month ← digitsBetween 2 1 12
    let _ ← char '-'
    discard <| checked (digitsBetween 2 1 31) fun day =>
      if day ≤ daysOf year month then .ok day else .error .outOfRange

/-- A fraction of a second. -/
def secondFraction : Reader Unit := do
  let _ ← char '.'
  discard (oneOrMore Char.isDigit)

/-- A time of day. After the hour and a colon nothing else can be meant. -/
def partialTime : Reader Unit := do
  let _ ← digitsBetween 2 0 23
  let _ ← char ':'
  commit do
    let _ ← digitsBetween 2 0 59
    let _ ← char ':'
    let _ ← digitsBetween 2 0 60
    discard (optional secondFraction)

/-- The distance from universal time. -/
def timeOffset : Reader Unit :=
  labelled "time offset" <|
    orTry (discard (charOf fun c => c == 'Z' || c == 'z')) do
      let _ ← charOf fun c => c == '+' || c == '-'
      commit do
        let _ ← digitsBetween 2 0 23
        let _ ← char ':'
        discard (digitsBetween 2 0 59)

/-- A time of day after a date. -/
def dateTimeRest : Reader Unit := do
  let _ ← charOf fun c => c == 'T' || c == 't' || c == ' '
  partialTime
  discard (optional timeOffset)

/-- A date, a time of day, or both. -/
def dateTime : Reader Unit :=
  orTry
    (labelled "date-time" do fullDate; discard (optional dateTimeRest))
    (labelled "time" partialTime)

end TypedSql.Toml
