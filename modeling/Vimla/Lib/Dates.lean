import Mathlib

/-!
# Dates as JavaScript prints them

A `Date` is its milliseconds since 1970 in UTC.
-/

namespace Js

/-- `String(value).padStart(width, "0")`. -/
def padNat (width value : Nat) : String :=
  let digits := toString value
  String.ofList (List.replicate (width - digits.length) '0') ++ digits

/-- Year, month and day of the day `days` after 1970-01-01, in the proleptic
Gregorian calendar. Years are counted from March, in eras of 400 years. -/
def civil (days : Int) : Int × Nat × Nat :=
  let era := (days + 719468) / 146097
  let dayOfEra := ((days + 719468) % 146097).toNat
  let yearOfEra := (dayOfEra - dayOfEra / 1460 + dayOfEra / 36524 - dayOfEra / 146096) / 365
  let dayOfYear := dayOfEra - (365 * yearOfEra + yearOfEra / 4 - yearOfEra / 100)
  let monthFromMarch := (5 * dayOfYear + 2) / 153
  let day := dayOfYear - (153 * monthFromMarch + 2) / 5 + 1
  let month := if monthFromMarch < 10 then monthFromMarch + 3 else monthFromMarch - 9
  let year := yearOfEra + era * 400
  (if month ≤ 2 then year + 1 else year, month, day)

/-- Years before 0 and after 9999 have a sign and six digits. -/
def isoYear (year : Int) : String :=
  if 0 ≤ year ∧ year ≤ 9999 then padNat 4 year.toNat
  else (if year < 0 then "-" else "+") ++ padNat 6 year.natAbs

/-- `new Date(ms).toISOString()`. -/
def toISOString (ms : Int) : String :=
  let date := civil (ms / 86400000)
  let time := (ms % 86400000).toNat
  isoYear date.1 ++ "-" ++ padNat 2 date.2.1 ++ "-" ++ padNat 2 date.2.2 ++ "T" ++
    padNat 2 (time / 3600000) ++ ":" ++ padNat 2 (time / 60000 % 60) ++ ":" ++
    padNat 2 (time / 1000 % 60) ++ "." ++ padNat 3 (time % 1000) ++ "Z"

example : toISOString 1709210096789 = "2024-02-29T12:34:56.789Z" := by decide +kernel

theorem digits_colons (n : Nat) : (Nat.toDigits 10 n).count ':' = 0 := by
  refine List.count_eq_zero.2 fun mem => ?_
  exact absurd (Nat.isDigit_of_mem_toDigits (by decide) (by decide) mem) (by decide)

theorem padNat_colons (width value : Nat) : (padNat width value).toList.count ':' = 0 := by
  simp [padNat, List.count_replicate, digits_colons]

theorem isoYear_colons (year : Int) : (isoYear year).toList.count ':' = 0 := by
  unfold isoYear
  split
  · exact padNat_colons _ _
  · rw [String.toList_append, List.count_append, padNat_colons]
    split <;> decide

/-- The time of day has the only colons. -/
theorem toISOString_colons (ms : Int) : (toISOString ms).toList.count ':' = 2 := by
  simp only [toISOString, String.toList_append, List.count_append, isoYear_colons, padNat_colons]
  decide

end Js
