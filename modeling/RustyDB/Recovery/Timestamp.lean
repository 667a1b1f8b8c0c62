import Mathlib
import RustyDB.Lib.Calendar
import RustyDB.Lib.Cutting
import RustyDB.Lib.Decimal
import RustyDB.Lib.Result
import RustyDB.Lib.Text

/-!
# Timestamps

`parse_rfc3339` cuts a text at its separators, reads each piece with the integer parsers of
the language and counts days in eras.  Its arithmetic is on integers of 32 and 64 bits.

* `parseI32`, `parseU32`, `parseI64`, `parseU64` — the integer parsers.
* `i32`, `i64` — a result of a computation, where it fits.
* `isLeapYear`, `daysFromCivil` — the calendar of the source.
* `parseDate`, `parseZone`, `parseFraction`, `parseClock` — the parts of a timestamp.
* `parseRfc3339` — the milliseconds since the epoch, an error, or the overflow of a computation.
* `daysFromCivil_eq_ok` — **the days of a date are the count of the calendar**;
  `daysFromCivil_eq` says for which dates they fit.
-/

namespace RustyDB
namespace Recovery

open Calendar Decimal Delimited Cutting

/-! ## Integers -/

/-- `str::parse::<i32>`. -/
def parseI32 : List Char → Option Int := parseInteger true (-2 ^ 31) (2 ^ 31 - 1)

/-- `str::parse::<u32>`. -/
def parseU32 : List Char → Option Int := parseInteger false 0 (2 ^ 32 - 1)

/-- `str::parse::<i64>`. -/
def parseI64 : List Char → Option Int := parseInteger true (-2 ^ 63) (2 ^ 63 - 1)

/-- `str::parse::<u64>`. -/
def parseU64 : List Char → Option Int := parseInteger false 0 (2 ^ 64 - 1)

/-- Why there is no time. -/
inductive TimestampError where
  | invalid (message : String)
  /-- A computation has left the range of its type. -/
  | overflow
  deriving DecidableEq, Repr

/-- A result of 32 bits. -/
def i32 (n : Int) : Except TimestampError Int :=
  if -2 ^ 31 ≤ n ∧ n ≤ 2 ^ 31 - 1 then .ok n else .error .overflow

/-- A result of 64 bits. -/
def i64 (n : Int) : Except TimestampError Int :=
  if -2 ^ 63 ≤ n ∧ n ≤ 2 ^ 63 - 1 then .ok n else .error .overflow

theorem i32_eq {n : Int} (hlow : -2 ^ 31 ≤ n) (hhigh : n ≤ 2 ^ 31 - 1) : i32 n = .ok n :=
  if_pos ⟨hlow, hhigh⟩

theorem i64_eq {n : Int} (hlow : -2 ^ 63 ≤ n) (hhigh : n ≤ 2 ^ 63 - 1) : i64 n = .ok n :=
  if_pos ⟨hlow, hhigh⟩

theorem i64_overflow {n : Int} (h : n < -2 ^ 63) : i64 n = .error .overflow :=
  if_neg fun hrange => absurd hrange.1 (by omega)

theorem i32_eq_ok {n m : Int} (h : i32 n = .ok m) : n = m := by
  rw [i32] at h
  split at h
  · exact Except.ok.inj h
  · cases h

/-! ## The calendar -/

/-- `is_leap_year`. -/
def isLeapYear (year : Int) : Bool :=
  year.tmod 4 = 0 && (year.tmod 100 ≠ 0 || year.tmod 400 = 0)

/-- The number that is divided for the era of a year. -/
def eraStart (year : Int) : Except TimestampError Int :=
  if 0 ≤ year then .ok year else i32 (year - 399)

/-- `days_from_civil`. -/
def daysFromCivil (year month day : Int) : Except TimestampError Int := do
  let year ← i32 (year - (if month ≤ 2 then 1 else 0))
  let start ← eraStart year
  let era := start.tdiv 400
  let yearOfEra ← i32 (year - (← i32 (era * 400)))
  let shifted ← i32 (month + (if 2 < month then -3 else 9))
  let monthDays ← i32 ((← i32 (153 * shifted)) + 2)
  let dayOfYear ← i32 ((← i32 (monthDays.tdiv 5 + day)) - 1)
  let leapDays ← i32 ((← i32 (yearOfEra * 365)) + yearOfEra.tdiv 4)
  let dayOfEra ← i32 ((← i32 (leapDays - yearOfEra.tdiv 100)) + dayOfYear)
  i32 ((← i32 ((← i32 (era * 146097)) + dayOfEra)) - 719468)

/-! ## The days of a date -/

section Days

variable {year start n : Int} {month day : Nat}

/-- The division of the source rounds towards zero, and is of a number that makes it round
down. -/
theorem eraStart_eq_ok (h : eraStart year = .ok start) : start.tdiv 400 = year / 400 := by
  have hsign : Int.sign 400 = 1 := rfl
  rw [eraStart] at h
  split at h
  · cases h
    rw [Int.tdiv_eq_ediv_of_nonneg (by assumption)]
  · obtain rfl := i32_eq_ok h
    rw [Int.tdiv_eq_ediv, hsign]
    split <;> omega

theorem marchYear_eq (year : Int) (month : Nat) :
    year - (if (month : Int) ≤ 2 then 1 else 0) = marchYear year month := by
  rw [marchYear]
  congr 1
  exact if_congr (by omega) rfl rfl

theorem shifted_eq (month : Nat) : (month : Int) + (if (2 : Int) < month then -3 else 9) =
    month + (if 2 < month then -3 else 9) := by
  congr 1
  exact if_congr (by omega) rfl rfl

/-- **The days of a date** are the count of the calendar, where there is a result. -/
theorem daysFromCivil_eq_ok (hpos : 1 ≤ month) (hle : month ≤ 12)
    (h : daysFromCivil year month day = .ok n) : n = dayCount year month day := by
  rw [daysFromCivil, marchYear_eq, shifted_eq] at h
  obtain ⟨march, hmarch, h⟩ := Result.bind_eq_ok.mp h
  obtain ⟨start, hstart, h⟩ := Result.bind_eq_ok.mp h
  obtain ⟨eraYears, heraYears, h⟩ := Result.bind_eq_ok.mp h
  obtain ⟨yearOfEra, hyearOfEra, h⟩ := Result.bind_eq_ok.mp h
  obtain ⟨shifted, hshifted, h⟩ := Result.bind_eq_ok.mp h
  obtain ⟨product, hproduct, h⟩ := Result.bind_eq_ok.mp h
  obtain ⟨monthDays, hmonthDays, h⟩ := Result.bind_eq_ok.mp h
  obtain ⟨counted, hcounted, h⟩ := Result.bind_eq_ok.mp h
  obtain ⟨ofYear, hofYear, h⟩ := Result.bind_eq_ok.mp h
  obtain ⟨years, hyears, h⟩ := Result.bind_eq_ok.mp h
  obtain ⟨leapDays, hleapDays, h⟩ := Result.bind_eq_ok.mp h
  obtain ⟨commonDays, hcommonDays, h⟩ := Result.bind_eq_ok.mp h
  obtain ⟨dayOfEra, hdayOfEra, h⟩ := Result.bind_eq_ok.mp h
  obtain ⟨eras, heras, h⟩ := Result.bind_eq_ok.mp h
  obtain ⟨days, hdays, h⟩ := Result.bind_eq_ok.mp h
  have hera := eraStart_eq_ok hstart
  -- The year of the era and the days of the months are not negative: both roundings agree.
  have hyearOfEra : yearOfEra = march % 400 := by
    rw [← i32_eq_ok hyearOfEra, ← i32_eq_ok heraYears, hera]
    omega
  have hmonthDays : monthDays = 153 * shifted + 2 := by
    rw [← i32_eq_ok hmonthDays, ← i32_eq_ok hproduct]
  have hshiftedPos : 0 ≤ shifted := by
    rw [← i32_eq_ok hshifted]
    split <;> omega
  have hmonthsDiv : monthDays.tdiv 5 = monthDays / 5 :=
    Int.tdiv_eq_ediv_of_nonneg (by omega)
  have hleapDiv : yearOfEra.tdiv 4 = yearOfEra / 4 := Int.tdiv_eq_ediv_of_nonneg (by omega)
  have hcenturyDiv : yearOfEra.tdiv 100 = yearOfEra / 100 :=
    Int.tdiv_eq_ediv_of_nonneg (by omega)
  have hofYear : ofYear = dayOfYear month day := by
    rw [← i32_eq_ok hofYear, ← i32_eq_ok hcounted, hmonthsDiv, hmonthDays, ← i32_eq_ok hshifted,
      dayOfYear]
  have hdayOfEra : dayOfEra = march % 400 * 365 + march % 400 / 4 - march % 400 / 100 +
      dayOfYear month day := by
    rw [← i32_eq_ok hdayOfEra, ← i32_eq_ok hcommonDays, ← i32_eq_ok hleapDays,
      ← i32_eq_ok hyears, hleapDiv, hcenturyDiv, hyearOfEra, hofYear]
  rw [← civilDay_eq_dayCount hpos hle, civilDay, i32_eq_ok hmarch, daysToMarch, ← i32_eq_ok h,
    ← i32_eq_ok hdays, ← i32_eq_ok heras, hera, hdayOfEra]
  omega

/-- The days of a date, with the three results that can leave the range. -/
theorem daysFromCivil_eq_bind (hyear : 0 ≤ year) (hmax : year ≤ 2 ^ 31 - 1) (hle : month ≤ 12)
    (hday : day ≤ 31) :
    daysFromCivil year month day = (do
      let eras ← i32 (marchYear year month / 400 * 146097)
      let days ← i32 (eras + (marchYear year month % 400 * 365 +
        marchYear year month % 400 / 4 - marchYear year month % 400 / 100 +
        dayOfYear month day))
      i32 (days - 719468)) := by
  have hbounds : -1 ≤ marchYear year month ∧ marchYear year month ≤ year := by
    rw [marchYear]
    split <;> omega
  rw [daysFromCivil, marchYear_eq, shifted_eq]
  generalize marchYear year month = march at hbounds ⊢
  have hstart : ∃ start, eraStart march = .ok start := by
    rw [eraStart]
    split
    · exact ⟨march, rfl⟩
    · exact ⟨march - 399, i32_eq (by omega) (by omega)⟩
  obtain ⟨start, hstart⟩ := hstart
  have hera := eraStart_eq_ok hstart
  have hyearOfEra : march - march / 400 * 400 = march % 400 := by omega
  have hshifted : 0 ≤ (month : Int) + (if 2 < month then -3 else 9) ∧
      (month : Int) + (if 2 < month then -3 else 9) ≤ 11 := by
    split <;> omega
  rw [dayOfYear]
  generalize (month : Int) + (if 2 < month then -3 else 9) = shifted at hshifted ⊢
  rw [i32_eq (by omega) (by omega), Result.ok_bind, hstart, Result.ok_bind, hera]
  simp (disch := omega) only [i32_eq, Result.ok_bind, hyearOfEra, Int.tdiv_eq_ediv_of_nonneg]

/-- The last day that the days of 32 bits reach is 5879610-09-09. -/
def AfterLastDay (year : Int) (month day : Nat) : Prop :=
  5879610 < year ∨ year = 5879610 ∧ (9 < month ∨ month = 9 ∧ 9 < day)

theorem dayCount_lastDay : dayCount 5879610 9 9 = 2 ^ 31 - 1 - 719468 := by
  rw [← civilDay_eq_dayCount (by decide) (by decide)]
  rfl

theorem isDate_lastDay : IsDate 5879610 9 9 := ⟨by decide, by decide, by decide, by decide⟩

/-- **Which dates fit.** -/
theorem dayCount_le_iff (h : IsDate year month day) :
    dayCount year month day ≤ 2 ^ 31 - 1 - 719468 ↔ ¬ AfterLastDay year month day := by
  rw [← dayCount_lastDay, AfterLastDay]
  constructor
  · intro hle hafter
    have hlt := dayCount_lt_dayCount isDate_lastDay h (by omega)
    omega
  · intro hnot
    by_cases heq : year = 5879610 ∧ month = 9 ∧ day = 9
    · obtain ⟨rfl, rfl, rfl⟩ := heq
      exact Int.le_refl _
    · exact Int.le_of_lt (dayCount_lt_dayCount h isDate_lastDay (by omega))

/-- **The days of a date** of a year that has no sign. -/
theorem daysFromCivil_eq (hyear : 0 ≤ year) (hmax : year ≤ 2 ^ 31 - 1)
    (h : IsDate year month day) :
    (¬ AfterLastDay year month day →
      daysFromCivil year month day = .ok (dayCount year month day)) ∧
    (AfterLastDay year month day → daysFromCivil year month day = .error .overflow) := by
  have hfits := dayCount_le_iff h
  have hday : day ≤ 31 := Nat.le_trans h.day_le monthLength_le
  have hpos := h.day_pos
  have hbounds : -1 ≤ marchYear year month := by
    rw [marchYear]
    split <;> omega
  have hofYear : 0 ≤ dayOfYear month day := by
    have hmonth := h.month_pos
    rw [dayOfYear]
    split <;> omega
  rw [← civilDay_eq_dayCount h.month_pos h.month_le, civilDay, daysToMarch] at hfits
  rw [daysFromCivil_eq_bind hyear hmax h.month_le hday,
    ← civilDay_eq_dayCount h.month_pos h.month_le, civilDay, daysToMarch]
  generalize marchYear year month = march at hbounds hfits ⊢
  generalize dayOfYear month day = ofYear at hofYear hfits ⊢
  constructor
  · intro hnot
    have hle := hfits.mpr hnot
    rw [i32_eq (by omega) (by omega), Result.ok_bind, i32_eq (by omega) (by omega),
      Result.ok_bind, i32_eq (by omega) (by omega)]
    congr 1
    omega
  · intro hafter
    have hgt : ¬ (march / 400 * 146097 + (march % 400 * 365 + march % 400 / 4 -
        march % 400 / 100) + ofYear - 719468 ≤ 2 ^ 31 - 1 - 719468) :=
      fun hle => hfits.mp hle hafter
    by_cases heras : march / 400 * 146097 ≤ 2 ^ 31 - 1
    · rw [i32_eq (by omega) heras, Result.ok_bind, i32, if_neg (by omega), Result.error_bind]
    · rw [i32, if_neg (by omega), Result.error_bind]

end Days

/-! ## The parts -/

/-- The next part, when there is one that is an integer. -/
def nextNumber (parse : List Char → Option Int) (part : Option (List Char)) (error : String) :
    Except TimestampError Int :=
  match part.bind parse with
  | some n => .ok n
  | none => .error (.invalid error)

/-- The days of a month that `parse_rfc3339` allows. -/
def daysInMonth (year month : Int) : Int :=
  if month = 2 then if isLeapYear year then 29 else 28
  else if month = 4 ∨ month = 6 ∨ month = 9 ∨ month = 11 then 30
  else 31

/-- The date of a timestamp. -/
def parseDate (date : List Char) : Except TimestampError (Int × Int × Int) := do
  let parts := date.splitOn '-'
  let year ← nextNumber parseI32 parts[0]? "Invalid timestamp year"
  let month ← nextNumber parseU32 parts[1]? "Invalid timestamp month"
  let day ← nextNumber parseU32 parts[2]? "Invalid timestamp day"
  if parts[3]?.isSome ∨ ¬ (1 ≤ month ∧ month ≤ 12) then
    .error (.invalid "Invalid timestamp date")
  else if ¬ (1 ≤ day ∧ day ≤ daysInMonth year month) then
    .error (.invalid "Invalid timestamp date")
  else .ok (year, month, day)

/-- A sign of an offset. -/
def isSign (c : Char) : Bool := c = '+' || c = '-'

/-- The seconds of an offset behind its sign. -/
def parseOffset (sign : Char) (offset : List Char) : Except TimestampError Int := do
  let parts := offset.splitOn ':'
  let hours ← nextNumber parseI64 parts[0]? "Invalid timestamp offset"
  let minutes ← nextNumber parseI64 parts[1]? "Invalid timestamp offset"
  if parts[2]?.isSome ∨ 23 < hours ∨ 59 < minutes then
    .error (.invalid "Invalid timestamp offset")
  else
    let seconds ← i64 ((← i64 (hours * 3600)) + (← i64 (minutes * 60)))
    i64 ((if sign = '-' then -1 else 1) * seconds)

/-- The clock of a time, and the seconds of its offset. -/
def parseZone (time : List Char) : Except TimestampError (List Char × Int) :=
  match (stripSuffix 'Z' time).or (stripSuffix 'z' time) with
  | some clock => .ok (clock, 0)
  | none =>
    match splitAtLast isSign time with
    | none => .error (.invalid "RFC 3339 timestamp requires Z or a UTC offset")
    | some (clock, sign, offset) => do
      let seconds ← parseOffset sign offset
      .ok (clock, seconds)

/-- The milliseconds of a fraction, which is empty when the second has none. -/
def parseFraction (secondPart fraction : List Char) : Except TimestampError Int :=
  if fraction = [] then
    if secondPart.getLast? = some '.' then .error (.invalid "Invalid timestamp fraction")
    else .ok 0
  else if ¬ fraction.all Char.isDigit then .error (.invalid "Invalid timestamp fraction")
  else do
    let digits := fraction.take 3
    let parsed ← nextNumber parseU64 (some digits) "Invalid timestamp fraction"
    .ok (parsed * 10 ^ (3 - digits.length))

/-- The hour, the minute, the second and the milliseconds of a clock. -/
def parseClock (clock : List Char) : Except TimestampError (Int × Int × Int × Int) := do
  let parts := clock.splitOn ':'
  let hour ← nextNumber parseI64 parts[0]? "Invalid timestamp hour"
  let minute ← nextNumber parseI64 parts[1]? "Invalid timestamp minute"
  match parts[2]? with
  | none => .error (.invalid "Invalid timestamp second")
  | some secondPart =>
    if parts[3]?.isSome ∨ 23 < hour ∨ 59 < minute then .error (.invalid "Invalid timestamp time")
    else
      let (secondsText, fraction) := (Text.splitOnce '.' secondPart).getD (secondPart, [])
      let second ← nextNumber parseI64 (some secondsText) "Invalid timestamp second"
      if 59 < second then .error (.invalid "Invalid timestamp second")
      else
        let millis ← parseFraction secondPart fraction
        .ok (hour, minute, second, millis)

/-! ## The whole timestamp -/

/-- The seconds since the epoch. -/
def unixSeconds (days hour minute second offset : Int) : Except TimestampError Int := do
  let dated ← i64 ((← i64 (days * 86400)) + (← i64 (hour * 3600)))
  let timed ← i64 (dated + (← i64 (minute * 60)))
  i64 ((← i64 (timed + second)) - offset)

/-- `parse_rfc3339`, in milliseconds since the epoch. -/
def parseRfc3339 (value : String) : Except TimestampError Int :=
  let text := Text.trim value.toList
  match (Text.splitOnce 'T' text).or (Text.splitOnce 't' text) with
  | none => .error (.invalid "Timestamp must use RFC 3339 date-time syntax")
  | some (date, time) => do
    let (year, month, day) ← parseDate date
    let (clock, offset) ← parseZone time
    let (hour, minute, second, millis) ← parseClock clock
    let days ← daysFromCivil year month day
    let seconds ← unixSeconds days hour minute second offset
    if seconds < 0 then .error (.invalid "Recovery timestamp predates the Unix epoch")
    else .ok (seconds * 1000 + millis)

example : parseRfc3339 "1970-01-01T08:00:01+08:00" = .ok 1000 := by decide +kernel

end Recovery
end RustyDB
