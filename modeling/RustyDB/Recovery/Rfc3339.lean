import Mathlib
import RustyDB.Recovery.Spelling

/-!
# RFC 3339

A timestamp of RFC 3339 has four digits for the year and two for each other number.  The
parser converts every one of them correctly, and it takes more: a sign in front of a number,
and digits that are missing or too many.

* `Moment.seconds`, `Moment.Fits` — the seconds of a moment, and when no sum on the way to them
  leaves its range; `Moment.finish_eq` is the arithmetic of the parser.
* `Spelling.Exact`, `Spelling.WellFormed` — the timestamps of RFC 3339.
* `parseRfc3339_correct` — **a well-formed timestamp is converted to the milliseconds that the
  calendar counts**, unless it lies before the epoch.
* `parseRfc3339_strict_iff` — **for which texts the parser accepts nothing but RFC 3339 and
  does not overflow.**
-/

namespace RustyDB
namespace Recovery

open Calendar Decimal Delimited Cutting LineFile

/-! ## The arithmetic of a moment -/

namespace Moment

/-- The seconds from the epoch to a moment. -/
noncomputable def seconds (m : Moment) : Int :=
  dayCount m.year m.month m.day * 86400 + m.hour * 3600 + m.minute * 60 + m.second - m.offset

/-- The date is one that 32 bits reach, and the hour, the minute and the second are not so far
below zero that a product or a sum is out of 64 bits. -/
structure Fits (m : Moment) : Prop where
  date : ¬ AfterLastDay m.year m.month m.day
  hour : -2 ^ 63 ≤ m.hour * 3600
  dated : -2 ^ 63 ≤ dayCount m.year m.month m.day * 86400 + m.hour * 3600
  minute : -2 ^ 63 ≤ m.minute * 60
  timed : -2 ^ 63 ≤ dayCount m.year m.month m.day * 86400 + m.hour * 3600 + m.minute * 60
  second : -2 ^ 63 ≤
    dayCount m.year m.month m.day * 86400 + m.hour * 3600 + m.minute * 60 + m.second
  offset : -2 ^ 63 ≤ m.seconds

/-- The ranges of the numbers that are read. -/
structure Bounded (m : Moment) : Prop where
  year_nonneg : 0 ≤ m.year
  year_le : m.year ≤ 2 ^ 31 - 1
  isDate : IsDate m.year m.month m.day
  hour_le : m.hour ≤ 23
  minute_le : m.minute ≤ 59
  second_le : m.second ≤ 59
  offset_ge : -86340 ≤ m.offset
  offset_le : m.offset ≤ 86340

variable {m : Moment}

/-- The count of a year that is not negative. -/
theorem Bounded.dayCount_ge (h : m.Bounded) : -719528 ≤ dayCount m.year m.month m.day := by
  have hfirst : dayCount 0 1 1 = -719528 := by
    rw [← civilDay_eq_dayCount (by decide) (by decide)]
    rfl
  have hdate : IsDate 0 1 1 := ⟨by decide, by decide, by decide, by decide⟩
  have hpos := h.isDate.month_pos
  have hday := h.isDate.day_pos
  have hyear := h.year_nonneg
  rw [← hfirst]
  by_cases heq : m.year = 0 ∧ m.month = 1 ∧ m.day = 1
  · obtain ⟨hy, hm, hd⟩ := heq
    rw [hy, hm, hd]
  · exact Int.le_of_lt (dayCount_lt_dayCount hdate h.isDate (by omega))

/-- **The arithmetic** of the parser: it overflows exactly where a value does not fit. -/
theorem finish_eq (h : m.Bounded) :
    (m.Fits → m.finish =
      if m.seconds < 0 then .error (.invalid "Recovery timestamp predates the Unix epoch")
      else .ok (m.seconds * 1000 + m.millis)) ∧
    (¬ m.Fits → m.finish = .error .overflow) := by
  have hlow := h.dayCount_ge
  have hfits := dayCount_le_iff h.isDate
  have hhour := h.hour_le
  have hminute := h.minute_le
  have hsecond := h.second_le
  have hoffset := h.offset_ge
  have hoffset' := h.offset_le
  obtain ⟨hdays, hoverflow⟩ := daysFromCivil_eq h.year_nonneg h.year_le h.isDate
  constructor
  · intro hm
    have hdate := hfits.mpr hm.date
    have h₁ := hm.hour
    have h₂ := hm.dated
    have h₃ := hm.minute
    have h₄ := hm.timed
    have h₅ := hm.second
    have h₆ := hm.offset
    rw [finish, hdays hm.date, Result.ok_bind, unixSeconds]
    rw [seconds] at h₆ ⊢
    simp (disch := omega) only [i64_eq, Result.ok_bind]
  · intro hm
    by_cases hafter : AfterLastDay m.year m.month m.day
    · rw [finish, hoverflow hafter, Result.error_bind]
    · have hdate := hfits.mpr hafter
      rw [finish, hdays hafter, Result.ok_bind, unixSeconds]
      by_cases h₁ : m.hour * 3600 < -2 ^ 63
      · simp (disch := omega) only [i64_eq, i64_overflow, Result.ok_bind, Result.error_bind]
      by_cases h₂ : dayCount m.year m.month m.day * 86400 + m.hour * 3600 < -2 ^ 63
      · simp (disch := omega) only [i64_eq, i64_overflow, Result.ok_bind, Result.error_bind]
      by_cases h₃ : m.minute * 60 < -2 ^ 63
      · simp (disch := omega) only [i64_eq, i64_overflow, Result.ok_bind, Result.error_bind]
      by_cases h₄ : dayCount m.year m.month m.day * 86400 + m.hour * 3600 + m.minute * 60 <
          -2 ^ 63
      · simp (disch := omega) only [i64_eq, i64_overflow, Result.ok_bind, Result.error_bind]
      by_cases h₅ : dayCount m.year m.month m.day * 86400 + m.hour * 3600 + m.minute * 60 +
          m.second < -2 ^ 63
      · simp (disch := omega) only [i64_eq, i64_overflow, Result.ok_bind, Result.error_bind]
      have h₆ : dayCount m.year m.month m.day * 86400 + m.hour * 3600 + m.minute * 60 +
          m.second - m.offset < -2 ^ 63 := by
        by_contra h₆
        exact hm ⟨hafter, by omega, by omega, by omega, by omega, by omega, by
          rw [seconds]
          omega⟩
      simp (disch := omega) only [i64_eq, i64_overflow, Result.ok_bind, Result.error_bind]

end Moment

/-- What the pieces are read as is in range. -/
theorem Spelling.Reads.bounded {f : Spelling} {m : Moment} (h : f.Reads m) : m.Bounded := by
  have hoffset : -86340 ≤ m.offset ∧ m.offset ≤ 86340 := by
    have hread := h.zone
    cases hz : f.zone with
    | utc marker =>
      rw [hz] at hread
      rw [hread.2]
      decide
    | offset sign hours minutes =>
      rw [hz] at hread
      obtain ⟨-, hplain, ho, mi, hhours, hminutes, hhle, hmle, heq⟩ := hread
      have hhpos := nonneg_of_plain (fun c hc => hplain c (List.mem_append_left _ hc)) hhours
      have hmpos := nonneg_of_plain
        (fun c hc => hplain c (List.mem_append_right _ (List.mem_cons_of_mem _ hc))) hminutes
      rw [heq, offsetSeconds]
      split <;> omega
  exact ⟨nonneg_of_parseInteger h.year h.year_plain, (range_of_parseInteger h.year).2, h.isDate,
    h.hour_le, h.minute_le, h.second_le, hoffset.1, hoffset.2⟩

/-! ## The grammar -/

/-- So many digits and nothing else. -/
def Digits (count : Nat) (text : List Char) : Prop :=
  text.length = count ∧ ∀ c ∈ text, c.isDigit = true

/-- The offset of a zone has two digits for the hours and two for the minutes. -/
def Zone.Exact : Zone → Prop
  | .utc _ => True
  | .offset _ hours minutes => Digits 2 hours ∧ Digits 2 minutes

/-- Every number has just its digits: no sign, none missing and none too many. -/
structure Spelling.Exact (f : Spelling) : Prop where
  year : Digits 4 f.year
  month : Digits 2 f.month
  day : Digits 2 f.day
  hour : Digits 2 f.hour
  minute : Digits 2 f.minute
  second : Digits 2 f.second
  zone : f.zone.Exact

/-- The zone is `Z`, or an offset of less than a day. -/
def Zone.WellFormed : Zone → Prop
  | .utc marker => marker = 'Z' ∨ marker = 'z'
  | .offset sign hours minutes =>
    isSign sign = true ∧ numberOf 10 hours ≤ 23 ∧ numberOf 10 minutes ≤ 59

/-- A timestamp of RFC 3339: its numbers have just their digits, its date is one of the
calendar, and its time is one of a day. -/
structure Spelling.WellFormed (f : Spelling) : Prop where
  exact : f.Exact
  isDate : IsDate (numberOf 10 f.year) (numberOf 10 f.month) (numberOf 10 f.day)
  marker : f.marker = 'T' ∨ f.marker = 't'
  hour_le : numberOf 10 f.hour ≤ 23
  minute_le : numberOf 10 f.minute ≤ 59
  second_le : numberOf 10 f.second ≤ 59
  fraction : ∀ c ∈ f.fraction, c.isDigit = true
  zone : f.zone.WellFormed

/-- The seconds that a zone is ahead. -/
def Zone.seconds : Zone → Int
  | .utc _ => 0
  | .offset sign hours minutes => offsetSeconds sign (numberOf 10 hours) (numberOf 10 minutes)

/-- The milliseconds of a fraction, cut off. -/
def truncatedMillis (fraction : List Char) : Nat :=
  numberOf 10 fraction * 1000 / 10 ^ fraction.length

/-- What the digits of a timestamp stand for. -/
def Spelling.moment (f : Spelling) : Moment where
  year := numberOf 10 f.year
  month := numberOf 10 f.month
  day := numberOf 10 f.day
  hour := numberOf 10 f.hour
  minute := numberOf 10 f.minute
  second := numberOf 10 f.second
  millis := truncatedMillis f.fraction
  offset := f.zone.seconds

/-! ## Digits are read -/

section Read

variable {signed : Bool} {low high n : Int} {text fraction : List Char} {count : Nat}
  {f : Spelling} {m : Moment} {zone : Zone}

theorem Digits.isDigits (h : Digits (count + 1) text) : IsDigits text := by
  refine ⟨?_, h.2⟩
  rintro rfl
  cases h.1

/-- **Four digits at most** are in the range of every integer type. -/
theorem parseInteger_of_digits (h : Digits (count + 1) text) (hcount : count ≤ 3)
    (hlow : low ≤ 0) (hhigh : 9999 ≤ high) :
    parseInteger signed low high text = some (numberOf 10 text : Int) := by
  have hlt := numberOf_lt h.2
  have hpow : 10 ^ text.length ≤ 10 ^ 4 := Nat.pow_le_pow_right (by decide) (by rw [h.1]; omega)
  refine parseInteger_digits h.isDigits ?_ ?_
  · omega
  · omega

/-- **Three digits** of a fraction are its milliseconds. -/
theorem fractionMillis_eq (h : ∀ c ∈ fraction, c.isDigit = true) :
    fractionMillis fraction = truncatedMillis fraction := by
  have hnat : numberOf 10 (fraction.take 3) * 10 ^ (3 - (fraction.take 3).length) =
      truncatedMillis fraction := by
    rw [truncatedMillis]
    rcases Nat.lt_or_ge fraction.length 3 with hshort | hlong
    · rw [List.take_of_length_le (Nat.le_of_lt hshort)]
      have hpow : 1000 = 10 ^ (3 - fraction.length) * 10 ^ fraction.length := by
        rw [← Nat.pow_add, Nat.sub_add_cancel (Nat.le_of_lt hshort)]
      rw [hpow, ← Nat.mul_assoc, Nat.mul_div_cancel _ (Nat.pow_pos (by decide))]
    · have hrest : ∀ c ∈ fraction.drop 3, c.isDigit = true :=
        fun c hc => h c (List.mem_of_mem_drop hc)
      have hsplit := numberOf_append (fraction.take 3) (fraction.drop 3)
      have hlength : fraction.length = (fraction.drop 3).length + 3 := by
        rw [List.length_drop]
        omega
      have hlt := numberOf_lt hrest
      rw [List.take_append_drop] at hsplit
      rw [List.length_take, Nat.min_eq_left hlong, hsplit, hlength, Nat.pow_add]
      generalize 10 ^ (fraction.drop 3).length = places at hlt
      have hplaces : 0 < places := by omega
      rw [show 10 ^ (3 - 3) = 1 from rfl, show 10 ^ 3 = 1000 from rfl, Nat.mul_one,
        Nat.mul_div_mul_right _ _ (by decide), Nat.mul_comm _ places, Nat.mul_add_div hplaces,
        Nat.div_eq_of_lt hlt, Nat.add_zero]
  rw [← hnat, fractionMillis]
  push_cast
  rfl

theorem Zone.WellFormed.reads (h : zone.WellFormed) (hexact : zone.Exact) :
    zone.Reads zone.seconds := by
  cases zone with
  | utc marker => exact ⟨h, rfl⟩
  | offset sign hours minutes =>
    obtain ⟨hsign, hhle, hmle⟩ := h
    have hhours : parseI64 hours = some (numberOf 10 hours : Int) :=
      parseInteger_of_digits hexact.1 (by decide) (by decide) (by decide)
    have hminutes : parseI64 minutes = some (numberOf 10 minutes : Int) :=
      parseInteger_of_digits hexact.2 (by decide) (by decide) (by decide)
    refine ⟨hsign, ?_, _, _, hhours, hminutes, by omega, by omega, rfl⟩
    have hdigit : ∀ {c : Char}, c.isDigit = true → isSign c = false := by
      intro c hc
      rw [isSign, Bool.or_eq_false_iff, decide_eq_false_iff_not, decide_eq_false_iff_not]
      constructor
      · rintro rfl
        exact absurd hc (by decide)
      · rintro rfl
        exact absurd hc (by decide)
    intro c hc
    rcases List.mem_append.mp hc with hc | hc
    · exact hdigit (hexact.1.2 c hc)
    · rcases List.mem_cons.mp hc with rfl | hc
      · rfl
      · exact hdigit (hexact.2.2 c hc)

/-- **A well-formed timestamp** is read as what its digits stand for. -/
theorem Spelling.WellFormed.reads (h : f.WellFormed) : f.Reads f.moment where
  year := parseInteger_of_digits h.exact.year (by decide) (by decide) (by decide)
  year_plain hmem := absurd (h.exact.year.2 '-' hmem) (by decide)
  month := parseInteger_of_digits h.exact.month (by decide) (by decide) (by decide)
  day := parseInteger_of_digits h.exact.day (by decide) (by decide) (by decide)
  isDate := h.isDate
  marker := h.marker
  hour := parseInteger_of_digits h.exact.hour (by decide) (by decide) (by decide)
  hour_le := by
    have hle := h.hour_le
    show (numberOf 10 f.hour : Int) ≤ 23
    omega
  minute := parseInteger_of_digits h.exact.minute (by decide) (by decide) (by decide)
  minute_le := by
    have hle := h.minute_le
    show (numberOf 10 f.minute : Int) ≤ 59
    omega
  second := parseInteger_of_digits h.exact.second (by decide) (by decide) (by decide)
  second_le := by
    have hle := h.second_le
    show (numberOf 10 f.second : Int) ≤ 59
    omega
  fraction := h.fraction
  millis := (fractionMillis_eq h.fraction).symm
  zone := h.zone.reads h.exact.zone

/-- **A well-formed timestamp fits**: it has no sign, and its year four digits. -/
theorem Spelling.WellFormed.fits (h : f.WellFormed) : f.moment.Fits := by
  have hbounded := h.reads.bounded
  have hcount := hbounded.dayCount_ge
  have hoffset := hbounded.offset_le
  have hyear := numberOf_lt h.exact.year.2
  have hpos : 0 ≤ f.moment.hour ∧ 0 ≤ f.moment.minute ∧ 0 ≤ f.moment.second :=
    ⟨Int.natCast_nonneg _, Int.natCast_nonneg _, Int.natCast_nonneg _⟩
  rw [h.exact.year.1] at hyear
  refine ⟨?_, by omega, by omega, by omega, by omega, by omega, ?_⟩
  · have hle : f.moment.year ≤ 9999 := by
      show (numberOf 10 f.year : Int) ≤ 9999
      omega
    rintro (hlater | ⟨heq, -⟩) <;> omega
  · rw [Moment.seconds]
    omega

/-- **Digits that are read** make a well-formed timestamp. -/
theorem Spelling.Reads.wellFormed (h : f.Reads m) (hexact : f.Exact) : f.WellFormed := by
  have hnumber : ∀ {signed low high n text count}, Digits (count + 1) text → count ≤ 3 →
      low ≤ 0 → 9999 ≤ high → parseInteger signed low high text = some n →
      n = numberOf 10 text := by
    intro signed low high n text count hdigits hcount hlow hhigh hparse
    rw [parseInteger_of_digits hdigits hcount hlow hhigh] at hparse
    exact (Option.some.inj hparse).symm
  have hyear := hnumber hexact.year (by decide) (by decide) (by decide) h.year
  have hmonth := hnumber hexact.month (by decide) (by decide) (by decide) h.month
  have hday := hnumber hexact.day (by decide) (by decide) (by decide) h.day
  have hhour := hnumber hexact.hour (by decide) (by decide) (by decide) h.hour
  have hminute := hnumber hexact.minute (by decide) (by decide) (by decide) h.minute
  have hsecond := hnumber hexact.second (by decide) (by decide) (by decide) h.second
  have hhourLe := h.hour_le
  have hminuteLe := h.minute_le
  have hsecondLe := h.second_le
  have hdate := h.isDate
  rw [hyear, Int.natCast_inj.mp hmonth, Int.natCast_inj.mp hday] at hdate
  refine ⟨hexact, hdate, h.marker, by omega, by omega, by omega, h.fraction, ?_⟩
  have hzone := h.zone
  have hzoneExact := hexact.zone
  cases hz : f.zone with
  | utc marker =>
    rw [hz] at hzone
    exact hzone.1
  | offset sign hours minutes =>
    rw [hz] at hzone hzoneExact
    obtain ⟨hsign, -, ho, mi, hhours, hminutes, hhle, hmle, -⟩ := hzone
    have hhours := hnumber hzoneExact.1 (by decide) (by decide) (by decide) hhours
    have hminutes := hnumber hzoneExact.2 (by decide) (by decide) (by decide) hminutes
    exact ⟨hsign, by omega, by omega⟩

end Read

/-! ## White space -/

/-- A text that neither begins nor ends with white space is not trimmed. -/
theorem trim_eq_self {text : List Char} (hfirst : ∀ c ∈ text.head?, isWhiteSpace c = false)
    (hlast : ∀ c ∈ text.getLast?, isWhiteSpace c = false) : Text.trim text = text := by
  have hdrop : ∀ {cs : List Char}, (∀ c ∈ cs.head?, isWhiteSpace c = false) →
      cs.dropWhile isWhiteSpace = cs := by
    intro cs hcs
    cases cs with
    | nil => rfl
    | cons c cs =>
      have hc := hcs c rfl
      rw [List.dropWhile_cons_of_neg (by rw [hc]; exact Bool.false_ne_true)]
  have hreverse : ∀ c ∈ text.reverse.head?, isWhiteSpace c = false := by
    rw [List.head?_reverse]
    exact hlast
  rw [Text.trim, Text.trimMatches, hdrop hfirst, hdrop hreverse, List.reverse_reverse]

theorem isWhiteSpace_digit {c : Char} (h : c.isDigit = true) : isWhiteSpace c = false := by
  have hbounds := Bool.and_eq_true_iff.mp h
  have hge : 48 ≤ c.toNat := UInt32.le_iff_toNat_le.mp (of_decide_eq_true hbounds.1)
  have hle : c.toNat ≤ 57 := UInt32.le_iff_toNat_le.mp (of_decide_eq_true hbounds.2)
  simp only [isWhiteSpace, Bool.or_eq_false_iff, Bool.and_eq_false_iff, beq_eq_false_iff_ne,
    decide_eq_false_iff_not]
  omega

/-- A timestamp begins with a digit, and ends with one or with `Z`. -/
theorem Spelling.WellFormed.trim {f : Spelling} (h : f.WellFormed) :
    Text.trim f.text = f.text := by
  refine trim_eq_self ?_ ?_
  · intro c hc
    have hne : f.year ≠ [] := h.exact.year.isDigits.1
    have hhead : f.text.head? = f.year.head? := by
      rw [Spelling.text, Spelling.date, List.append_assoc, List.head?_append_of_ne_nil _ hne]
    rw [hhead] at hc
    exact isWhiteSpace_digit (h.exact.year.2 c (List.mem_of_head? hc))
  · intro c hc
    have hzone := h.zone
    have hexact := h.exact.zone
    cases hz : f.zone with
    | utc marker =>
      rw [hz] at hzone
      have htext : f.text = f.date ++ f.marker :: f.clock ++ [marker] := by
        simp [Spelling.text, hz, Zone.text]
      rw [htext, List.getLast?_concat] at hc
      cases hc
      rcases hzone with rfl | rfl <;> decide
    | offset sign hours minutes =>
      rw [hz] at hexact
      have htext : f.text =
          (f.date ++ f.marker :: (f.clock ++ sign :: (hours ++ [':']))) ++ minutes := by
        simp [Spelling.text, hz, Zone.text]
      rw [htext, List.getLast?_append_of_ne_nil _ hexact.2.isDigits.1] at hc
      exact isWhiteSpace_digit (hexact.2.2 c (List.mem_of_getLast? hc))

/-! ## The main results -/

/-- **Timestamps are converted correctly.**  The result is the count of days up to the date,
the time of the day, less the offset, and the milliseconds of the fraction, cut off; when the
whole seconds are negative there is an error.  `days_from_civil` is the sum of the lengths of
years and months wherever it has a result, and it has one for each date of four digits. -/
theorem parseRfc3339_correct :
    (∀ f : Spelling, f.WellFormed →
      parseRfc3339 (String.ofList f.text) =
        if dayCount (numberOf 10 f.year) (numberOf 10 f.month) (numberOf 10 f.day) * 86400 +
            numberOf 10 f.hour * 3600 + numberOf 10 f.minute * 60 + numberOf 10 f.second -
            f.zone.seconds < 0 then
          .error (.invalid "Recovery timestamp predates the Unix epoch")
        else
          .ok (dayCount (numberOf 10 f.year) (numberOf 10 f.month) (numberOf 10 f.day) *
              86400000 +
            (numberOf 10 f.hour * 3600 + numberOf 10 f.minute * 60 + numberOf 10 f.second) *
              1000 -
            f.zone.seconds * 1000 + truncatedMillis f.fraction)) ∧
    ∀ (year : Int) (month day : Nat), IsDate year month day →
      (∀ n, daysFromCivil year month day = .ok n → n = dayCount year month day) ∧
      (0 ≤ year → year ≤ 9999 →
        daysFromCivil year month day = .ok (dayCount year month day)) := by
  constructor
  · intro f h
    have htext : Text.trim (String.ofList f.text).toList = f.text := by
      rw [String.toList_ofList, h.trim]
    rw [parseRfc3339_of_reads htext h.reads, (Moment.finish_eq h.reads.bounded).1 h.fits]
    show (if f.moment.seconds < 0 then _ else _) = if f.moment.seconds < 0 then _ else _
    congr 2
    show f.moment.seconds * 1000 + truncatedMillis f.fraction = _
    rw [Moment.seconds]
    show (dayCount (numberOf 10 f.year) (numberOf 10 f.month) (numberOf 10 f.day) * 86400 +
      numberOf 10 f.hour * 3600 + numberOf 10 f.minute * 60 + numberOf 10 f.second -
      f.zone.seconds) * 1000 + truncatedMillis f.fraction = _
    ring
  · intro year month day h
    refine ⟨fun n hn => daysFromCivil_eq_ok h.month_pos h.month_le hn, fun hyear hmax => ?_⟩
    refine (daysFromCivil_eq hyear (by omega) h).1 ?_
    rintro (hlater | ⟨heq, -⟩) <;> omega

/-- `1970-01-01T08:00:01.2505+08:00`. -/
def sampleSpelling : Spelling where
  year := ['1', '9', '7', '0']
  month := ['0', '1']
  day := ['0', '1']
  marker := 'T'
  hour := ['0', '8']
  minute := ['0', '0']
  second := ['0', '1']
  fraction := ['2', '5', '0', '5']
  zone := .offset '+' ['0', '8'] ['0', '0']

theorem wellFormed_sampleSpelling : sampleSpelling.WellFormed where
  exact := ⟨⟨rfl, List.all_eq_true.mp rfl⟩, ⟨rfl, List.all_eq_true.mp rfl⟩,
    ⟨rfl, List.all_eq_true.mp rfl⟩, ⟨rfl, List.all_eq_true.mp rfl⟩,
    ⟨rfl, List.all_eq_true.mp rfl⟩, ⟨rfl, List.all_eq_true.mp rfl⟩,
    ⟨rfl, List.all_eq_true.mp rfl⟩, ⟨rfl, List.all_eq_true.mp rfl⟩⟩
  isDate := ⟨by decide, by decide, by decide, by decide⟩
  marker := Or.inl rfl
  hour_le := by decide
  minute_le := by decide
  second_le := by decide
  fraction := List.all_eq_true.mp rfl
  zone := ⟨rfl, by decide, by decide⟩

theorem sample_converted :
    parseRfc3339 (String.ofList sampleSpelling.text) =
      if dayCount 1970 1 1 * 86400 + 8 * 3600 + 0 * 60 + 1 - sampleSpelling.zone.seconds < 0 then
        .error (.invalid "Recovery timestamp predates the Unix epoch")
      else
        .ok (dayCount 1970 1 1 * 86400000 + (8 * 3600 + 0 * 60 + 1) * 1000 -
          sampleSpelling.zone.seconds * 1000 + 250) :=
  parseRfc3339_correct.1 sampleSpelling wellFormed_sampleSpelling

/-- The text is a timestamp of RFC 3339. -/
def IsRfc3339 (text : List Char) : Prop := ∃ f : Spelling, f.WellFormed ∧ text = f.text

theorem length_of_isRfc3339 {text : List Char} (h : IsRfc3339 text) : 20 ≤ text.length := by
  obtain ⟨f, hf, rfl⟩ := h
  have hyear := hf.exact.year.1
  have hmonth := hf.exact.month.1
  have hday := hf.exact.day.1
  have hhour := hf.exact.hour.1
  have hminute := hf.exact.minute.1
  have hsecond : 2 ≤ (secondText f.second f.fraction).length := by
    have htwo := hf.exact.second.1
    rw [secondText]
    split
    · omega
    · rw [List.length_append]
      omega
  have hzone : 1 ≤ f.zone.text.length := by
    cases f.zone <;> simp [Zone.text]
  simp only [Spelling.text, Spelling.date, Spelling.clock, List.length_append, List.length_cons]
  omega

/-- Each way to read the text as numbers that are not spelled with just their digits gives a
moment that fits and lies before the epoch. -/
def LooselyRefused (text : List Char) : Prop :=
  ∀ (f : Spelling) (m : Moment), text = f.text → f.Reads m → ¬ f.Exact →
    m.Fits ∧ m.seconds < 0

/-- **Only RFC 3339, and no overflow**, holds of exactly the texts that are not read as numbers
with a sign or with digits missing or too many, but for those whose moment fits and lies before
the epoch. -/
theorem parseRfc3339_strict_iff (value : String) :
    ((∀ time, parseRfc3339 value = .ok time → IsRfc3339 (Text.trim value.toList)) ∧
      parseRfc3339 value ≠ .error .overflow) ↔
    LooselyRefused (Text.trim value.toList) := by
  constructor
  · rintro ⟨hstrict, hplain⟩ f m htext h hloose
    obtain ⟨hfits, hoverflow⟩ := Moment.finish_eq h.bounded
    rw [parseRfc3339_of_reads htext h] at hstrict hplain
    have hm : m.Fits := by
      by_contra hm
      exact hplain (hoverflow hm)
    refine ⟨hm, ?_⟩
    by_contra hseconds
    rw [hfits hm, if_neg hseconds] at hstrict
    obtain ⟨g, hg, hsame⟩ := hstrict _ rfl
    have heq : f = g := h.unique hg.reads (htext.symm.trans hsame)
    exact hloose (heq ▸ hg.exact)
  · intro hrefused
    rcases parseRfc3339_cases value with ⟨message, hinvalid⟩ | ⟨f, m, htext, h, hfinish⟩
    · rw [hinvalid]
      exact ⟨nofun, nofun⟩
    · obtain ⟨hfits, hoverflow⟩ := Moment.finish_eq h.bounded
      by_cases hexact : f.Exact
      · have hwell := h.wellFormed hexact
        refine ⟨fun _ _ => ⟨f, hwell, htext⟩, ?_⟩
        rw [parseRfc3339_of_reads htext hwell.reads,
          (Moment.finish_eq hwell.reads.bounded).1 hwell.fits]
        split <;> exact nofun
      · obtain ⟨hm, hseconds⟩ := hrefused f m htext h hexact
        rw [hfinish, hfits hm, if_pos hseconds]
        exact ⟨nofun, nofun⟩

/-- Digits may be missing, an hour may be negative, and a year may be too long for 32 bits. -/
theorem loose_timestamps :
    ¬ ((∀ time, parseRfc3339 "2026-1-1T0:0:0Z" = .ok time →
        IsRfc3339 (Text.trim "2026-1-1T0:0:0Z".toList)) ∧
      parseRfc3339 "2026-1-1T0:0:0Z" ≠ .error .overflow) ∧
    ¬ ((∀ time, parseRfc3339 "2026-01-01T-5:0:0Z" = .ok time →
        IsRfc3339 (Text.trim "2026-01-01T-5:0:0Z".toList)) ∧
      parseRfc3339 "2026-01-01T-5:0:0Z" ≠ .error .overflow) ∧
    ¬ ((∀ time, parseRfc3339 "5879611-01-01T00:00:00Z" = .ok time →
        IsRfc3339 (Text.trim "5879611-01-01T00:00:00Z".toList)) ∧
      parseRfc3339 "5879611-01-01T00:00:00Z" ≠ .error .overflow) := by
  have hshort : parseRfc3339 "2026-1-1T0:0:0Z" = .ok 1767225600000 := by decide +kernel
  have hnegative : parseRfc3339 "2026-01-01T-5:0:0Z" = .ok 1767207600000 := by decide +kernel
  have hlong : parseRfc3339 "5879611-01-01T00:00:00Z" = .error .overflow := by decide +kernel
  have hlength : (Text.trim "2026-1-1T0:0:0Z".toList).length < 20 := by decide +kernel
  have hlength' : (Text.trim "2026-01-01T-5:0:0Z".toList).length < 20 := by decide +kernel
  refine ⟨?_, ?_, fun h => h.2 hlong⟩
  · rintro ⟨hstrict, -⟩
    exact absurd (length_of_isRfc3339 (hstrict _ hshort)) (by omega)
  · rintro ⟨hstrict, -⟩
    exact absurd (length_of_isRfc3339 (hstrict _ hnegative)) (by omega)

end Recovery
end RustyDB
