import Chinwag.Lib.Rfc3339

/-!
# Instants as nanoseconds since the epoch

For code that compares, subtracts and prints instants in UTC.
-/
namespace Chinwag.UnixTime

open Rfc3339

def nanosPerSecond : ℤ := 1000000000

/-- Year, month and day of a day number, counted from March through eras of 400 years. -/
def civil (day : ℤ) : ℤ × ℕ × ℕ :=
  let z := day + 719468
  let era := z / 146097
  let doe := (z % 146097).toNat
  let yoe := (doe - doe / 1460 + doe / 36524 - doe / 146096) / 365
  let doy := doe - (365 * yoe + yoe / 4 - yoe / 100)
  let mp := (5 * doy + 2) / 153
  let month := if mp < 10 then mp + 3 else mp - 9
  (yoe + era * 400 + (if month ≤ 2 then 1 else 0), month, doy - (153 * mp + 2) / 5 + 1)

example : civil (dayNumber 2000 2 29) = (2000, 2, 29) ∧ civil (dayNumber 2026 8 14) = (2026, 8, 14) ∧
    civil (dayNumber 1 1 1) = (1, 1, 1) ∧ civil (dayNumber 2100 3 1) = (2100, 3, 1) := by decide

/-- `appendInt` with a width. -/
def padInt (width : ℕ) (n : ℤ) : List Char :=
  (if n < 0 then ['-'] else []) ++
    if (toString n.natAbs).length < width then pad width n.natAbs else (toString n.natAbs).toList

/-- `UTC().Format(time.RFC3339)`. -/
def format (t : ℤ) : String :=
  let seconds := t / nanosPerSecond
  let (year, month, day) := civil (seconds / 86400)
  let clock := (seconds % 86400).toNat
  String.ofList (padInt 4 year ++ '-' :: (pad 2 month ++ '-' :: (pad 2 day ++
    'T' :: (pad 2 (clock / 3600) ++ ':' :: (pad 2 (clock / 60 % 60) ++ ':' :: (pad 2 (clock % 60) ++ ['Z']))))))

/-- The instant of a time in its zone. -/
def ofTime (t : Time) : ℤ :=
  (dayNumber t.year t.month t.day * 86400 + (t.hour * 3600 + t.minute * 60 + t.second : ℕ) - t.offset) * nanosPerSecond +
    t.nano

/-- Printing leaves the instant as it is exactly if the zone has no seconds. -/
theorem ofTime_printed (t : Time) : ofTime t.printed = ofTime t ↔ wholeMinutes t.offset = t.offset := by
  unfold ofTime Time.printed nanosPerSecond
  dsimp only
  omega

/-- The zero `time.Time`, the first of January of the year one. -/
def zeroTime : ℤ := -62135596800 * nanosPerSecond

def minDuration : ℤ := -2 ^ 63

def maxDuration : ℤ := 2 ^ 63 - 1

/-- `Sub`, which keeps to what a `Duration` holds. -/
def sub (t u : ℤ) : ℤ := max minDuration (min maxDuration (t - u))

example : format 1786701600000000000 = "2026-08-14T10:00:00Z" := by decide +kernel

end Chinwag.UnixTime
