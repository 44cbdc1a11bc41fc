import Wiring.Text.Digits
import Wiring.Toml.Scan
/-!
# Dates and times

A date of the calendar, a time of day, or a date and a time with or without an offset from
universal time.
-/

namespace Wiring.Toml

/-- Whether February has 29 days. -/
def isLeapYear (year : Nat) : Bool := year % 4 == 0 && (year % 100 != 0 || year % 400 == 0)

def daysInMonth (year month : Nat) : Nat :=
  if month = 2 then (if isLeapYear year then 29 else 28)
  else if month ∈ [4, 6, 9, 11] then 30
  else 31

namespace Scan

/-- A number of so many digits within bounds. -/
def bounded (width low high : Nat) : Scan Nat := do
  let n := Text.valueOf 10 (← times width (one Char.isDigit))
  guard (low ≤ n ∧ n ≤ high)
  return n

def date : Scan Unit := do
  let year ← bounded 4 0 9999
  discard (char '-')
  let month ← bounded 2 1 12
  discard (char '-')
  discard (bounded 2 1 (daysInMonth year month))

def hourMinute : Scan Unit := do
  discard (bounded 2 0 23)
  discard (char ':')
  discard (bounded 2 0 59)

/-- A minute may have a leap second. -/
def timeOfDay : Scan Unit := do
  hourMinute
  discard (char ':')
  discard (bounded 2 0 60)
  discard (optional (char '.' *> run1 Char.isDigit))

def offset : Scan Unit :=
  discard (one fun c => c == 'Z' || c == 'z') <|>
    discard (one fun c => c == '+' || c == '-') *> hourMinute

/-- What follows a date: a time after a mark or a blank. -/
def timeOfDate : Scan Unit := do
  discard (one fun c => c == 'T' || c == 't' || c == ' ')
  timeOfDay
  discard (optional offset)

def dateTime : Scan String :=
  String.ofList <$> taken (date *> discard (optional timeOfDate) <|> timeOfDay)

end Scan

end Wiring.Toml
