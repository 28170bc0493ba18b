import TypedSql.Files.Disk
import TypedSql.Program
import Std.Time.DateTime

/-!
# Command line

Runs the program on the files of the machine and prints what it leaves to its caller.
-/

namespace TypedSql

/-- A number with at least so many digits. -/
def padded (width : Nat) (n : Int) : String :=
  let digits := toString n
  String.ofList (List.replicate (width - digits.length) '0') ++ digits

/-- The time of the day in UTC, as reports tell it. -/
def now : IO String := do
  let stamp ← Std.Time.Timestamp.now
  let moment := Std.Time.PlainDateTime.ofWallTime (stamp.toWallTime Std.Time.TimeZone.Offset.zero)
  let date := moment.date
  let time := moment.time
  let day := "-".intercalate
    [padded 4 date.year.toInt, padded 2 date.month.val, padded 2 date.day.val]
  let clock := ":".intercalate
    [padded 2 time.hour.val, padded 2 time.minute.val, padded 2 time.second.val]
  return day ++ "T" ++ clock ++ "." ++ padded 9 time.nanosecond.val ++ "+00:00"

end TypedSql

/-- Runs the program. -/
def main (arguments : List String) : IO UInt32 := do
  let transcript ← TypedSql.Program.main (← TypedSql.now) arguments
  IO.print (TypedSql.Program.textOf transcript.output)
  IO.eprint (TypedSql.Program.textOf transcript.errors)
  return transcript.exitCode.toUInt32
