import OxScada.Bytes.Buffer

/-! Dates as JavaScript writes them. A valid date is a number of milliseconds since 1970. -/

namespace OxScada.Js
open OxScada.Bytes

structure CivilDate where
  year : ℤ
  month : ℤ
  day : ℤ
  deriving DecidableEq

/-- The day of the proleptic Gregorian calendar, by eras of 400 years that begin in March. -/
def civilFromDays (days : ℤ) : CivilDate :=
  let z := days + 719468
  let era := z / 146097
  let dayOfEra := z % 146097
  let yearOfEra := (dayOfEra - dayOfEra / 1460 + dayOfEra / 36524 - dayOfEra / 146096) / 365
  let dayOfYear := dayOfEra - (365 * yearOfEra + yearOfEra / 4 - yearOfEra / 100)
  let monthFromMarch := (5 * dayOfYear + 2) / 153
  let month := if monthFromMarch < 10 then monthFromMarch + 3 else monthFromMarch - 9
  { year := yearOfEra + era * 400 + if month ≤ 2 then 1 else 0
    month
    day := dayOfYear - (153 * monthFromMarch + 2) / 5 + 1 }

def dateLimit : ℤ := 8640000000000000

def timeClip (time : ℚ) : Option ℤ :=
  if |time| ≤ dateLimit then some (if 0 ≤ time then ⌊time⌋ else ⌈time⌉) else none

def padded (width : ℕ) (n : ℤ) : Text := (Nat.toDigits 10 n.toNat).leftpad width '0'

/-- Years outside of four digits have a sign and six digits. -/
def isoYear (year : ℤ) : Text :=
  if 0 ≤ year ∧ year ≤ 9999 then padded 4 year
  else if year < 0 then '-' :: padded 6 (-year)
  else '+' :: padded 6 year

def toISOString (time : ℤ) : Text :=
  let date := civilFromDays (time / 86400000)
  let ms := time % 86400000
  isoYear date.year ++ '-' :: padded 2 date.month ++ '-' :: padded 2 date.day ++ 'T' :: padded 2 (ms / 3600000) ++
    ':' :: padded 2 (ms / 60000 % 60) ++ ':' :: padded 2 (ms / 1000 % 60) ++ '.' :: padded 3 (ms % 1000) ++ ['Z']

example : toISOString 951782400000 = "2000-02-29T00:00:00.000Z".toList := by decide +kernel

example : toISOString (-62167219200001) = "-000001-12-31T23:59:59.999Z".toList := by decide +kernel

end OxScada.Js
