import Mathlib
import RustyDB.Recovery.Timestamp

/-!
# How a timestamp is spelled

The pieces of a timestamp, as they are written, and what they stand for.  The parser finds
just these pieces, and reads them with integer parsers that take a sign and any number of
digits.

* `Zone`, `Spelling`, `Spelling.text` — the pieces, and the text that they make.
* `Moment`, `Spelling.Reads` — the numbers, and which pieces the parser reads as them.
* `Moment.finish` — the days and the seconds of a moment.
* `parseDate_eq_ok`, `parseZone_eq_ok`, `parseClock_eq_ok` — the parts of the parser.
* `parseRfc3339_of_reads`, `parseRfc3339_cases` — **the parser finishes the moment that the
  pieces of its text stand for, or says that the text is invalid.**
* `Spelling.Reads.unique` — a text has one spelling.
-/

namespace RustyDB
namespace Recovery

open Calendar Decimal Delimited Cutting

/-! ## Pieces -/

/-- What stands behind the clock: `Z`, or a sign, hours and minutes. -/
inductive Zone where
  | utc (marker : Char)
  | offset (sign : Char) (hours minutes : List Char)

/-- A zone as it is written. -/
def Zone.text : Zone → List Char
  | .utc marker => [marker]
  | .offset sign hours minutes => sign :: (hours ++ ':' :: minutes)

/-- The pieces of a timestamp; the fraction is empty when there is none. -/
structure Spelling where
  year : List Char
  month : List Char
  day : List Char
  marker : Char
  hour : List Char
  minute : List Char
  second : List Char
  fraction : List Char
  zone : Zone

/-- A second and its fraction. -/
def secondText (second fraction : List Char) : List Char :=
  if fraction = [] then second else second ++ '.' :: fraction

namespace Spelling

/-- The date as it is written. -/
def date (f : Spelling) : List Char := f.year ++ '-' :: (f.month ++ '-' :: f.day)

/-- The time of day as it is written. -/
def clock (f : Spelling) : List Char :=
  f.hour ++ ':' :: (f.minute ++ ':' :: secondText f.second f.fraction)

/-- The whole timestamp as it is written. -/
def text (f : Spelling) : List Char := f.date ++ f.marker :: (f.clock ++ f.zone.text)

end Spelling

/-! ## Numbers -/

/-- What a timestamp stands for; the offset is in seconds. -/
structure Moment where
  year : Int
  month : Nat
  day : Nat
  hour : Int
  minute : Int
  second : Int
  millis : Int
  offset : Int

/-- The milliseconds of the first digits of a fraction. -/
def fractionMillis (fraction : List Char) : Int :=
  (numberOf 10 (fraction.take 3) : Int) * 10 ^ (3 - (fraction.take 3).length)

/-- The seconds of an offset. -/
def offsetSeconds (sign : Char) (hours minutes : Int) : Int :=
  (if sign = '-' then -1 else 1) * (hours * 3600 + minutes * 60)

/-- The zone is read as an offset; the last sign of the text is its sign. -/
def Zone.Reads : Zone → Int → Prop
  | .utc marker, n => (marker = 'Z' ∨ marker = 'z') ∧ n = 0
  | .offset sign hours minutes, n => isSign sign = true ∧
    (∀ c ∈ hours ++ ':' :: minutes, isSign c = false) ∧
    ∃ h m, parseI64 hours = some h ∧ parseI64 minutes = some m ∧ h ≤ 23 ∧ m ≤ 59 ∧
      n = offsetSeconds sign h m

/-- The pieces are numbers, with the values and in the ranges that `parse_rfc3339` takes. -/
structure Spelling.Reads (f : Spelling) (m : Moment) : Prop where
  year : parseI32 f.year = some m.year
  year_plain : '-' ∉ f.year
  month : parseU32 f.month = some (m.month : Int)
  day : parseU32 f.day = some (m.day : Int)
  isDate : IsDate m.year m.month m.day
  marker : f.marker = 'T' ∨ f.marker = 't'
  hour : parseI64 f.hour = some m.hour
  hour_le : m.hour ≤ 23
  minute : parseI64 f.minute = some m.minute
  minute_le : m.minute ≤ 59
  second : parseI64 f.second = some m.second
  second_le : m.second ≤ 59
  fraction : ∀ c ∈ f.fraction, c.isDigit = true
  millis : m.millis = fractionMillis f.fraction
  zone : f.zone.Reads m.offset

/-- What is done with the numbers of a timestamp. -/
def Moment.finish (m : Moment) : Except TimestampError Int := do
  let days ← daysFromCivil m.year m.month m.day
  let seconds ← unixSeconds days m.hour m.minute m.second m.offset
  if seconds < 0 then .error (.invalid "Recovery timestamp predates the Unix epoch")
  else .ok (seconds * 1000 + m.millis)

/-! ## Computations without an overflow -/

section NoOverflow

variable {α β : Type} {x : Except TimestampError α} {f : α → Except TimestampError β}

/-- The computation does not overflow. -/
def NoOverflow (x : Except TimestampError α) : Prop := x ≠ .error .overflow

theorem NoOverflow.invalid_or_ok (h : NoOverflow x) :
    (∃ message, x = .error (.invalid message)) ∨ ∃ a, x = .ok a := by
  rcases Result.error_or_ok x with ⟨error, rfl⟩ | hok
  · cases error with
    | invalid message => exact Or.inl ⟨message, rfl⟩
    | overflow => exact absurd rfl h
  · exact Or.inr hok

theorem noOverflow_ok {a : α} : NoOverflow (.ok a : Except TimestampError α) := nofun

theorem noOverflow_invalid {message : String} :
    NoOverflow (.error (.invalid message) : Except TimestampError α) := nofun

theorem noOverflow_bind (hx : NoOverflow x) (hf : ∀ a, x = .ok a → NoOverflow (f a)) :
    NoOverflow (x >>= f) := by
  rcases hx.invalid_or_ok with ⟨message, rfl⟩ | ⟨a, rfl⟩
  · exact noOverflow_invalid
  · exact hf a rfl

end NoOverflow

section Parts

variable {parse : List Char → Option Int} {part : Option (List Char)} {error : String} {n : Int}

theorem nextNumber_eq_ok : nextNumber parse part error = .ok n ↔
    ∃ piece, part = some piece ∧ parse piece = some n := by
  rw [← Option.bind_eq_some_iff, nextNumber]
  cases part.bind parse with
  | none => exact ⟨nofun, nofun⟩
  | some m => simp

theorem noOverflow_nextNumber : NoOverflow (nextNumber parse part error) := by
  rw [nextNumber]
  split
  · exact noOverflow_ok
  · exact noOverflow_invalid

/-! ## The date -/

variable {date time clock offset left right hours minutes : List Char} {sign : Char}
  {year month day hour minute second millis h m : Int}

theorem noOverflow_parseDate : NoOverflow (parseDate date) := by
  rw [parseDate]
  refine noOverflow_bind noOverflow_nextNumber fun year _ => ?_
  refine noOverflow_bind noOverflow_nextNumber fun month _ => ?_
  refine noOverflow_bind noOverflow_nextNumber fun day _ => ?_
  split
  · exact noOverflow_invalid
  · split
    · exact noOverflow_invalid
    · exact noOverflow_ok

theorem isLeapYear_eq (year : Int) : isLeapYear year = isLeap year := by
  have hzero : ∀ k : Int, year.tmod k = 0 ↔ year % k = 0 := by
    intro k
    rw [← Int.dvd_iff_tmod_eq_zero, ← Int.dvd_iff_emod_eq_zero]
  rw [isLeapYear, isLeap]
  simp only [ne_eq, hzero]

/-- The table of the parser is the calendar. -/
theorem daysInMonth_eq {month : Nat} (hle : month ≤ 12) :
    daysInMonth year month = monthLength year month := by
  rw [daysInMonth, isLeapYear_eq]
  interval_cases month <;> simp [monthLength]

/-- **A date** is three numbers that are a date of the calendar. -/
theorem parseDate_eq_ok : parseDate date = .ok (year, month, day) ↔
    ∃ yearText monthText dayText, date = yearText ++ '-' :: (monthText ++ '-' :: dayText) ∧
      '-' ∉ yearText ∧ parseI32 yearText = some year ∧ parseU32 monthText = some month ∧
      parseU32 dayText = some day ∧ 1 ≤ month ∧ month ≤ 12 ∧ 1 ≤ day ∧
      day ≤ daysInMonth year month := by
  rw [parseDate]
  constructor
  · intro hparse
    obtain ⟨y, hy, hparse⟩ := Result.bind_eq_ok.mp hparse
    obtain ⟨mo, hmo, hparse⟩ := Result.bind_eq_ok.mp hparse
    obtain ⟨d, hd, hparse⟩ := Result.bind_eq_ok.mp hparse
    obtain ⟨yearText, hyear, hy⟩ := nextNumber_eq_ok.mp hy
    obtain ⟨monthText, hmonth, hmo⟩ := nextNumber_eq_ok.mp hmo
    obtain ⟨dayText, hday, hd⟩ := nextNumber_eq_ok.mp hd
    split at hparse
    · cases hparse
    · rename_i hmonths
      obtain ⟨hend, hmonths⟩ := not_or.mp hmonths
      split at hparse
      · cases hparse
      · rename_i hdays
        cases hparse
        have hsplit := eq_triple_of_getElem? hyear hmonth hday
          (Option.not_isSome_iff_eq_none.mp hend)
        obtain ⟨hdate, hplain, -, -⟩ := splitOn_eq_triple.mp hsplit
        exact ⟨yearText, monthText, dayText, hdate, hplain, hy, hmo, hd,
          (not_not.mp hmonths).1, (not_not.mp hmonths).2, (not_not.mp hdays).1,
          (not_not.mp hdays).2⟩
  · rintro ⟨yearText, monthText, dayText, rfl, hplain, hy, hmo, hd, hone, htwelve, hpos, hle⟩
    have hmonth := notMem_of_parseInteger hmo (c := '-') rfl (by decide) fun _ => rfl
    have hday := notMem_of_parseInteger hd (c := '-') rfl (by decide) fun _ => rfl
    have hsplit := splitOn_eq_triple.mpr ⟨rfl, hplain, hmonth, hday⟩
    rw [hsplit]
    dsimp only [List.getElem?_cons_succ, List.getElem?_cons_zero]
    rw [nextNumber_eq_ok.mpr ⟨yearText, rfl, hy⟩, Result.ok_bind,
      nextNumber_eq_ok.mpr ⟨monthText, rfl, hmo⟩, Result.ok_bind,
      nextNumber_eq_ok.mpr ⟨dayText, rfl, hd⟩, Result.ok_bind,
      if_neg (by simp [hone, htwelve]), if_neg (by simp [hpos, hle])]

/-! ## The zone -/

/-- Without a sign, the numbers of an offset are not negative. -/
theorem nonneg_of_plain {text : List Char} (hplain : ∀ c ∈ text, isSign c = false)
    (hn : parseI64 text = some n) : 0 ≤ n :=
  nonneg_of_parseInteger hn fun hmem => absurd (hplain '-' hmem) (by decide)

/-- The seconds of an offset of less than a day. -/
theorem offsetSeconds_eq_ok (hh : 0 ≤ h) (hhle : h ≤ 23) (hm : 0 ≤ m) (hmle : m ≤ 59) :
    (do
      let seconds ← i64 ((← i64 (h * 3600)) + (← i64 (m * 60)))
      i64 ((if sign = '-' then -1 else 1) * seconds)) = .ok (offsetSeconds sign h m) := by
  have hsign : (if sign = '-' then (-1 : Int) else 1) = -1 ∨
      (if sign = '-' then (-1 : Int) else 1) = 1 := by
    split
    · exact Or.inl rfl
    · exact Or.inr rfl
  rw [offsetSeconds]
  generalize (if sign = '-' then (-1 : Int) else 1) = factor at hsign ⊢
  rw [i64_eq (by omega) (by omega), Result.ok_bind, i64_eq (by omega) (by omega), Result.ok_bind,
    i64_eq (by omega) (by omega), Result.ok_bind]
  rcases hsign with rfl | rfl
  · exact i64_eq (by omega) (by omega)
  · exact i64_eq (by omega) (by omega)

theorem noOverflow_parseOffset (hplain : ∀ c ∈ offset, isSign c = false) :
    NoOverflow (parseOffset sign offset) := by
  rw [parseOffset]
  refine noOverflow_bind noOverflow_nextNumber fun h hh => ?_
  refine noOverflow_bind noOverflow_nextNumber fun m hm => ?_
  split
  · exact noOverflow_invalid
  · rename_i hrange
    obtain ⟨hend, hhours⟩ := not_or.mp hrange
    obtain ⟨hhours, hminutes⟩ := not_or.mp hhours
    obtain ⟨hours, hhourPart, hhour⟩ := nextNumber_eq_ok.mp hh
    obtain ⟨minutes, hminutePart, hminute⟩ := nextNumber_eq_ok.mp hm
    have hsplit := eq_pair_of_getElem? hhourPart hminutePart
      (Option.not_isSome_iff_eq_none.mp hend)
    obtain ⟨hoffset, -, -⟩ := splitOn_eq_pair.mp hsplit
    rw [hoffset] at hplain
    have hhpos := nonneg_of_plain (fun c hc => hplain c (List.mem_append_left _ hc)) hhour
    have hmpos := nonneg_of_plain
      (fun c hc => hplain c (List.mem_append_right _ (List.mem_cons_of_mem _ hc))) hminute
    have hseconds := @offsetSeconds_eq_ok sign h m hhpos (by omega) hmpos (by omega)
    intro heq
    rw [heq] at hseconds
    cases hseconds

/-- **An offset** is two numbers below a day. -/
theorem parseOffset_eq_ok (hplain : ∀ c ∈ offset, isSign c = false) :
    parseOffset sign offset = .ok n ↔
      ∃ hours minutes h m, offset = hours ++ ':' :: minutes ∧ parseI64 hours = some h ∧
        parseI64 minutes = some m ∧ h ≤ 23 ∧ m ≤ 59 ∧ n = offsetSeconds sign h m := by
  rw [parseOffset]
  constructor
  · intro hparse
    obtain ⟨h, hh, hparse⟩ := Result.bind_eq_ok.mp hparse
    obtain ⟨m, hm, hparse⟩ := Result.bind_eq_ok.mp hparse
    obtain ⟨hours, hhourPart, hhour⟩ := nextNumber_eq_ok.mp hh
    obtain ⟨minutes, hminutePart, hminute⟩ := nextNumber_eq_ok.mp hm
    split at hparse
    · cases hparse
    · rename_i hrange
      obtain ⟨hend, hhours⟩ := not_or.mp hrange
      obtain ⟨hhours, hminutes⟩ := not_or.mp hhours
      have hsplit := eq_pair_of_getElem? hhourPart hminutePart
        (Option.not_isSome_iff_eq_none.mp hend)
      obtain ⟨hoffset, -, -⟩ := splitOn_eq_pair.mp hsplit
      rw [hoffset] at hplain
      have hhpos := nonneg_of_plain (fun c hc => hplain c (List.mem_append_left _ hc)) hhour
      have hmpos := nonneg_of_plain
        (fun c hc => hplain c (List.mem_append_right _ (List.mem_cons_of_mem _ hc))) hminute
      rw [offsetSeconds_eq_ok hhpos (by omega) hmpos (by omega)] at hparse
      exact ⟨hours, minutes, h, m, hoffset, hhour, hminute, by omega, by omega,
        (Except.ok.inj hparse).symm⟩
  · rintro ⟨hours, minutes, h, m, rfl, hh, hm, hhle, hmle, rfl⟩
    have hhours := notMem_of_parseInteger hh (c := ':') rfl (by decide) nofun
    have hminutes := notMem_of_parseInteger hm (c := ':') rfl (by decide) nofun
    have hsplit := splitOn_eq_pair.mpr ⟨rfl, hhours, hminutes⟩
    have hhpos := nonneg_of_plain (fun c hc => hplain c (List.mem_append_left _ hc)) hh
    have hmpos := nonneg_of_plain
      (fun c hc => hplain c (List.mem_append_right _ (List.mem_cons_of_mem _ hc))) hm
    rw [hsplit]
    dsimp only [List.getElem?_cons_succ, List.getElem?_cons_zero]
    rw [nextNumber_eq_ok.mpr ⟨hours, rfl, hh⟩, Result.ok_bind,
      nextNumber_eq_ok.mpr ⟨minutes, rfl, hm⟩, Result.ok_bind, if_neg (by simp; omega)]
    exact offsetSeconds_eq_ok hhpos hhle hmpos hmle

/-- The offset behind the last sign has no sign. -/
theorem noOverflow_parseZone : NoOverflow (parseZone time) := by
  rw [parseZone]
  split
  · exact noOverflow_ok
  · split
    · exact noOverflow_invalid
    · rename_i clock sign offset hcut
      obtain ⟨-, -, -, hplain⟩ := splitAtLast_eq_some.mp hcut
      exact noOverflow_bind (noOverflow_parseOffset hplain) fun _ _ => noOverflow_ok

/-- **The zone** that is found behind the clock. -/
theorem reads_of_parseZone (h : parseZone time = .ok (clock, n)) :
    ∃ zone : Zone, time = clock ++ zone.text ∧ zone.Reads n := by
  rw [parseZone] at h
  split at h
  · rename_i before hsuffix
    cases h
    rcases Option.or_eq_some_iff.mp hsuffix with hupper | ⟨-, hlower⟩
    · exact ⟨.utc 'Z', stripSuffix_eq_some.mp hupper, Or.inl rfl, rfl⟩
    · exact ⟨.utc 'z', stripSuffix_eq_some.mp hlower, Or.inr rfl, rfl⟩
  · split at h
    · cases h
    · rename_i before sign offset hcut
      obtain ⟨seconds, hseconds, h⟩ := Result.bind_eq_ok.mp h
      cases h
      obtain ⟨rfl, -, hsign, hplain⟩ := splitAtLast_eq_some.mp hcut
      obtain ⟨hours, minutes, ho, mi, rfl, hread⟩ := (parseOffset_eq_ok hplain).mp hseconds
      exact ⟨.offset sign hours minutes, rfl, hsign, hplain, ho, mi, hread⟩

/-- A text that ends with digits does not end with a letter. -/
theorem stripSuffix_eq_none {text : List Char} {c : Char} (hn : parseI64 text = some n)
    (hc : c.isDigit = false) (hplus : c ≠ '+') (hminus : c ≠ '-') (left : List Char) :
    stripSuffix c (left ++ text) = none := by
  rw [Option.eq_none_iff_forall_ne_some]
  intro before hbefore
  have htext := stripSuffix_eq_some.mp hbefore
  have hlast : text.getLast? = some c := by
    rw [← List.getLast?_append_of_ne_nil left (ne_nil_of_parseInteger hn), htext,
      List.getLast?_concat]
  exact notMem_of_parseInteger hn hc hplus (fun heq => absurd heq hminus)
    (List.mem_of_getLast? hlast)

/-- **A zone behind a clock** is found. -/
theorem parseZone_of_reads {zone : Zone} (h : zone.Reads n) (hclock : clock ≠ []) :
    parseZone (clock ++ zone.text) = .ok (clock, n) := by
  cases zone with
  | utc marker =>
    obtain ⟨hmarker, rfl⟩ := h
    have hsuffix : (stripSuffix 'Z' (clock ++ [marker])).or (stripSuffix 'z' (clock ++ [marker])) =
        some clock := by
      rcases hmarker with rfl | rfl
      · rw [stripSuffix_eq_some.mpr rfl, Option.some_or]
      · have hnone : stripSuffix 'Z' (clock ++ ['z']) = none := by
          rw [stripSuffix, List.getLast?_concat, if_neg (by decide)]
        rw [hnone, Option.none_or, stripSuffix_eq_some.mpr rfl]
    rw [parseZone, Zone.text, hsuffix]
  | offset sign hours minutes =>
    obtain ⟨hsign, hplain, h, m, hh, hm, hread⟩ := h
    have htime : clock ++ (Zone.offset sign hours minutes).text =
        (clock ++ sign :: (hours ++ [':'])) ++ minutes := by
      simp [Zone.text]
    have hcut : splitAtLast isSign (clock ++ (Zone.offset sign hours minutes).text) =
        some (clock, sign, hours ++ ':' :: minutes) :=
      splitAtLast_eq_some.mpr ⟨rfl, hclock, hsign, hplain⟩
    have hupper := stripSuffix_eq_none (c := 'Z') hm rfl (by decide) (by decide)
      (clock ++ sign :: (hours ++ [':']))
    have hlower := stripSuffix_eq_none (c := 'z') hm rfl (by decide) (by decide)
      (clock ++ sign :: (hours ++ [':']))
    rw [← htime] at hupper hlower
    rw [parseZone, hupper, hlower, Option.none_or, hcut]
    dsimp only
    rw [(parseOffset_eq_ok hplain).mpr ⟨hours, minutes, h, m, rfl, hh, hm, hread⟩, Result.ok_bind]

/-! ## The clock -/

theorem noOverflow_parseFraction {secondPart fraction : List Char} :
    NoOverflow (parseFraction secondPart fraction) := by
  rw [parseFraction]
  split
  · split
    · exact noOverflow_invalid
    · exact noOverflow_ok
  · split
    · exact noOverflow_invalid
    · exact noOverflow_bind noOverflow_nextNumber fun _ _ => noOverflow_ok

/-- **The digits of a fraction** count as milliseconds. -/
theorem parseFraction_eq_ok {secondPart fraction : List Char} (hne : fraction ≠ []) :
    parseFraction secondPart fraction = .ok millis ↔
      (∀ c ∈ fraction, c.isDigit = true) ∧ millis = fractionMillis fraction := by
  rw [parseFraction, if_neg hne]
  by_cases hall : fraction.all Char.isDigit = true
  · have hdigits := List.all_eq_true.mp hall
    have htake : IsDigits (fraction.take 3) := by
      refine ⟨?_, fun c hc => hdigits c (List.mem_of_mem_take hc)⟩
      cases fraction with
      | nil => exact absurd rfl hne
      | cons c fraction => exact List.cons_ne_nil _ _
    have hbound : numberOf 10 (fraction.take 3) < 1000 := by
      refine Nat.lt_of_lt_of_le (numberOf_lt htake.2) ?_
      calc 10 ^ (fraction.take 3).length ≤ 10 ^ 3 :=
            Nat.pow_le_pow_right (by decide) (List.length_take_le 3 fraction)
        _ = 1000 := rfl
    have hparse : parseU64 (fraction.take 3) = some (numberOf 10 (fraction.take 3) : Int) :=
      parseInteger_digits htake (by omega) (by omega)
    rw [if_neg (not_not.mpr hall)]
    dsimp only
    rw [nextNumber_eq_ok.mpr ⟨fraction.take 3, rfl, hparse⟩, Result.ok_bind, Except.ok.injEq,
      fractionMillis]
    exact ⟨fun heq => ⟨hdigits, heq.symm⟩, fun heq => heq.2.symm⟩
  · rw [if_pos hall]
    exact ⟨nofun, fun h => absurd (List.all_eq_true.mpr h.1) hall⟩

theorem noOverflow_parseClock : NoOverflow (parseClock clock) := by
  rw [parseClock]
  refine noOverflow_bind noOverflow_nextNumber fun hour _ => ?_
  refine noOverflow_bind noOverflow_nextNumber fun minute _ => ?_
  split
  · exact noOverflow_invalid
  · split
    · exact noOverflow_invalid
    · refine noOverflow_bind noOverflow_nextNumber fun second _ => ?_
      split
      · exact noOverflow_invalid
      · exact noOverflow_bind noOverflow_parseFraction fun _ _ => noOverflow_ok

/-- What a second with its fraction is cut into, and read as. -/
theorem parseFraction_secondText {second fraction : List Char} (hdot : '.' ∉ second)
    (hdigits : ∀ c ∈ fraction, c.isDigit = true) :
    (Text.splitOnce '.' (secondText second fraction)).getD (secondText second fraction, []) =
        (second, fraction) ∧
      parseFraction (secondText second fraction) fraction = .ok (fractionMillis fraction) := by
  rw [secondText]
  split
  · rename_i hnil
    subst hnil
    rw [splitOnce_eq_none.mpr hdot]
    refine ⟨rfl, ?_⟩
    have hlast : ¬ second.getLast? = some '.' := fun h => hdot (List.mem_of_getLast? h)
    rw [parseFraction, if_pos rfl, if_neg hlast]
    rfl
  · rename_i hne
    rw [splitOnce_eq_some.mpr ⟨rfl, hdot⟩]
    exact ⟨rfl, (parseFraction_eq_ok hne).mpr ⟨hdigits, rfl⟩⟩

/-- **A clock** is three numbers and a fraction. -/
theorem parseClock_eq_ok : parseClock clock = .ok (hour, minute, second, millis) ↔
    ∃ hourText minuteText secondDigits fraction,
      clock = hourText ++ ':' :: (minuteText ++ ':' :: secondText secondDigits fraction) ∧
      parseI64 hourText = some hour ∧ hour ≤ 23 ∧ parseI64 minuteText = some minute ∧
      minute ≤ 59 ∧ parseI64 secondDigits = some second ∧ second ≤ 59 ∧
      (∀ c ∈ fraction, c.isDigit = true) ∧ millis = fractionMillis fraction := by
  rw [parseClock]
  constructor
  · intro hparse
    obtain ⟨ho, hho, hparse⟩ := Result.bind_eq_ok.mp hparse
    obtain ⟨mi, hmi, hparse⟩ := Result.bind_eq_ok.mp hparse
    obtain ⟨hourText, hhourPart, hhour⟩ := nextNumber_eq_ok.mp hho
    obtain ⟨minuteText, hminutePart, hminute⟩ := nextNumber_eq_ok.mp hmi
    split at hparse
    · cases hparse
    · rename_i secondPart hsecondPart
      split at hparse
      · cases hparse
      · rename_i hrange
        obtain ⟨hend, hrange⟩ := not_or.mp hrange
        obtain ⟨hhle, hmle⟩ := not_or.mp hrange
        have hsplit := eq_triple_of_getElem? hhourPart hminutePart hsecondPart
          (Option.not_isSome_iff_eq_none.mp hend)
        obtain ⟨hclock, -, -, -⟩ := splitOn_eq_triple.mp hsplit
        cases hcut : Text.splitOnce '.' secondPart with
        | none =>
          rw [hcut, Option.getD_none] at hparse
          dsimp only at hparse
          obtain ⟨se, hse, hparse⟩ := Result.bind_eq_ok.mp hparse
          obtain ⟨secondDigits, hdigits, hsecond⟩ := nextNumber_eq_ok.mp hse
          cases hdigits
          split at hparse
          · cases hparse
          · rename_i hsle
            obtain ⟨ms, hms, hparse⟩ := Result.bind_eq_ok.mp hparse
            cases hparse
            rw [parseFraction, if_pos rfl] at hms
            split at hms
            · cases hms
            · cases hms
              exact ⟨hourText, minuteText, secondPart, [], hclock, hhour, by omega, hminute,
                by omega, hsecond, by omega, nofun, rfl⟩
        | some halves =>
          obtain ⟨secondDigits, fraction⟩ := halves
          obtain ⟨hsecondPart, -⟩ := splitOnce_eq_some.mp hcut
          rw [hcut, Option.getD_some] at hparse
          dsimp only at hparse
          obtain ⟨se, hse, hparse⟩ := Result.bind_eq_ok.mp hparse
          obtain ⟨digits, hdigits, hsecond⟩ := nextNumber_eq_ok.mp hse
          cases hdigits
          split at hparse
          · cases hparse
          · rename_i hsle
            obtain ⟨ms, hms, hparse⟩ := Result.bind_eq_ok.mp hparse
            cases hparse
            by_cases hne : fraction = []
            · subst hne
              rw [parseFraction, if_pos rfl, hsecondPart, if_pos List.getLast?_concat] at hms
              cases hms
            · obtain ⟨hall, hmillis⟩ := (parseFraction_eq_ok hne).mp hms
              refine ⟨hourText, minuteText, secondDigits, fraction, ?_, hhour, by omega, hminute,
                by omega, hsecond, by omega, hall, hmillis⟩
              rw [secondText, if_neg hne, hclock, hsecondPart]
  · rintro ⟨hourText, minuteText, secondDigits, fraction, rfl, hhour, hhle, hminute, hmle,
      hsecond, hsle, hdigits, rfl⟩
    have hhours := notMem_of_parseInteger hhour (c := ':') rfl (by decide) nofun
    have hminutes := notMem_of_parseInteger hminute (c := ':') rfl (by decide) nofun
    have hseconds : ':' ∉ secondText secondDigits fraction := by
      have hcolon := notMem_of_parseInteger hsecond (c := ':') rfl (by decide) nofun
      rw [secondText]
      split
      · exact hcolon
      · intro hmem
        rcases List.mem_append.mp hmem with hmem | hmem
        · exact hcolon hmem
        · rcases List.mem_cons.mp hmem with hmem | hmem
          · exact absurd hmem (by decide)
          · exact absurd (hdigits ':' hmem) (by decide)
    have hsplit := splitOn_eq_triple.mpr ⟨rfl, hhours, hminutes, hseconds⟩
    have hdot := notMem_of_parseInteger hsecond (c := '.') rfl (by decide) nofun
    obtain ⟨hcut, hfraction⟩ := parseFraction_secondText hdot hdigits
    rw [hsplit]
    dsimp only [List.getElem?_cons_succ, List.getElem?_cons_zero]
    rw [nextNumber_eq_ok.mpr ⟨hourText, rfl, hhour⟩, Result.ok_bind,
      nextNumber_eq_ok.mpr ⟨minuteText, rfl, hminute⟩, Result.ok_bind]
    rw [if_neg (by simp; omega), hcut, nextNumber_eq_ok.mpr ⟨secondDigits, rfl, hsecond⟩,
      Result.ok_bind, if_neg (by omega),
      hfraction, Result.ok_bind]

end Parts

/-! ## The whole timestamp -/

section Whole

variable {f g : Spelling} {m m' : Moment} {c : Char}

theorem Spelling.Reads.clock_ne_nil (h : f.Reads m) : f.clock ≠ [] :=
  List.append_ne_nil_of_left_ne_nil (ne_nil_of_parseInteger h.hour) _

/-- A character that is no digit and no sign is not in a number. -/
theorem notMem_number {signed : Bool} {low high n : Int} {text : List Char}
    (h : parseInteger signed low high text = some n) (hdigit : c.isDigit = false)
    (hsign : isSign c = false) : c ∉ text := by
  rw [isSign, Bool.or_eq_false_iff, decide_eq_false_iff_not, decide_eq_false_iff_not] at hsign
  exact notMem_of_parseInteger h hdigit hsign.1 fun heq => absurd heq hsign.2

/-- A letter is not in a date. -/
theorem Spelling.Reads.notMem_date (h : f.Reads m) (hdigit : c.isDigit = false)
    (hsign : isSign c = false) : c ∉ f.date := by
  have hminus : c ≠ '-' := by
    rintro rfl
    cases hsign
  have hyear := notMem_number h.year hdigit hsign
  have hmonth := notMem_number h.month hdigit hsign
  have hday := notMem_number h.day hdigit hsign
  simp only [Spelling.date, List.mem_append, List.mem_cons, not_or]
  exact ⟨hyear, hminus, hmonth, hminus, hday⟩

/-- A capital T is not in a time. -/
theorem Spelling.Reads.notMem_time (h : f.Reads m) : 'T' ∉ f.clock ++ f.zone.text := by
  have hhour := notMem_number (c := 'T') h.hour rfl rfl
  have hminute := notMem_number (c := 'T') h.minute rfl rfl
  have hsecond : 'T' ∉ secondText f.second f.fraction := by
    have hdigits := notMem_number (c := 'T') h.second rfl rfl
    have hfraction : 'T' ∉ f.fraction := fun hmem => absurd (h.fraction 'T' hmem) (by decide)
    rw [secondText]
    split
    · exact hdigits
    · simp [hdigits, hfraction]
  have hzone : 'T' ∉ f.zone.text := by
    have hread := h.zone
    cases hz : f.zone with
    | utc marker =>
      rw [hz] at hread
      rcases hread.1 with rfl | rfl <;> decide
    | offset sign hours minutes =>
      rw [hz] at hread
      obtain ⟨hsign, -, n, n', hhours, hminutes, -⟩ := hread
      have hne : 'T' ≠ sign := by
        rintro rfl
        cases hsign
      have hhours := notMem_number (c := 'T') hhours rfl rfl
      have hminutes := notMem_number (c := 'T') hminutes rfl rfl
      simp [Zone.text, hne, hhours, hminutes]
  simp [Spelling.clock, hhour, hminute, hsecond, hzone]

theorem Spelling.Reads.parseDate (h : f.Reads m) :
    Recovery.parseDate f.date = .ok (m.year, (m.month : Int), (m.day : Int)) := by
  have hmonth := h.isDate.month_pos
  have hmonthLe := h.isDate.month_le
  have hday := h.isDate.day_pos
  have hdayLe := h.isDate.day_le
  refine parseDate_eq_ok.mpr ⟨f.year, f.month, f.day, rfl, h.year_plain, h.year, h.month, h.day,
    by omega, by omega, by omega, ?_⟩
  rw [daysInMonth_eq h.isDate.month_le]
  omega

theorem Spelling.Reads.parseClock (h : f.Reads m) :
    Recovery.parseClock f.clock = .ok (m.hour, m.minute, m.second, m.millis) :=
  parseClock_eq_ok.mpr ⟨f.hour, f.minute, f.second, f.fraction, rfl, h.hour, h.hour_le, h.minute,
    h.minute_le, h.second, h.second_le, h.fraction, h.millis⟩

/-- The parser on the text of a timestamp. -/
theorem Spelling.Reads.splitOnce (h : f.Reads m) :
    (Text.splitOnce 'T' f.text).or (Text.splitOnce 't' f.text) =
      some (f.date, f.clock ++ f.zone.text) := by
  have hupper := h.notMem_date (c := 'T') rfl rfl
  have hlower := h.notMem_date (c := 't') rfl rfl
  rcases h.marker with hmarker | hmarker
  · have hcut : Text.splitOnce 'T' f.text = some (f.date, f.clock ++ f.zone.text) := by
      rw [Spelling.text, hmarker]
      exact splitOnce_eq_some.mpr ⟨rfl, hupper⟩
    rw [hcut, Option.some_or]
  · have hcut : Text.splitOnce 't' f.text = some (f.date, f.clock ++ f.zone.text) := by
      rw [Spelling.text, hmarker]
      exact splitOnce_eq_some.mpr ⟨rfl, hlower⟩
    have hnone : Text.splitOnce 'T' f.text = none := by
      refine splitOnce_eq_none.mpr ?_
      rw [Spelling.text, hmarker, List.mem_append, List.mem_cons]
      rintro (hmem | hmem | hmem)
      · exact hupper hmem
      · exact absurd hmem (by decide)
      · exact h.notMem_time hmem
    rw [hnone, Option.none_or, hcut]

/-- **The parser finishes** the moment that the pieces of its text stand for. -/
theorem parseRfc3339_of_reads {value : String} (htext : Text.trim value.toList = f.text)
    (h : f.Reads m) : parseRfc3339 value = m.finish := by
  have hzone := parseZone_of_reads h.zone h.clock_ne_nil
  rw [parseRfc3339]
  dsimp only
  rw [htext, h.splitOnce]
  dsimp only
  rw [h.parseDate, Result.ok_bind, hzone, Result.ok_bind, h.parseClock, Result.ok_bind]
  rfl

/-- **The parser says that the text is invalid, or finishes** what its pieces stand for. -/
theorem parseRfc3339_cases (value : String) :
    (∃ message, parseRfc3339 value = .error (.invalid message)) ∨
      ∃ f m, Text.trim value.toList = f.text ∧ Spelling.Reads f m ∧
        parseRfc3339 value = m.finish := by
  cases hsplit : (Text.splitOnce 'T' (Text.trim value.toList)).or
      (Text.splitOnce 't' (Text.trim value.toList)) with
  | none =>
    refine Or.inl ⟨"Timestamp must use RFC 3339 date-time syntax", ?_⟩
    rw [parseRfc3339]
    dsimp only
    rw [hsplit]
  | some halves =>
    obtain ⟨date, time⟩ := halves
    have hmarker : ∃ marker, (marker = 'T' ∨ marker = 't') ∧
        Text.trim value.toList = date ++ marker :: time := by
      rcases Option.or_eq_some_iff.mp hsplit with hcut | ⟨-, hcut⟩
      · exact ⟨'T', Or.inl rfl, (splitOnce_eq_some.mp hcut).1⟩
      · exact ⟨'t', Or.inr rfl, (splitOnce_eq_some.mp hcut).1⟩
    obtain ⟨marker, hmarker, htext⟩ := hmarker
    -- Each part is invalid, and so is the text then, or it is read.
    rcases (@noOverflow_parseDate date).invalid_or_ok with ⟨message, hdate⟩ |
      ⟨⟨year, month, day⟩, hdate⟩
    · exact Or.inl ⟨message, by simp only [parseRfc3339, hsplit, hdate, Result.error_bind]⟩
    rcases (@noOverflow_parseZone time).invalid_or_ok with ⟨message, hzone⟩ |
      ⟨⟨clock, offset⟩, hzone⟩
    · exact Or.inl ⟨message, by
        simp only [parseRfc3339, hsplit, hdate, Result.ok_bind, hzone, Result.error_bind]⟩
    rcases (@noOverflow_parseClock clock).invalid_or_ok with ⟨message, hclock⟩ |
      ⟨⟨hour, minute, second, millis⟩, hclock⟩
    · exact Or.inl ⟨message, by
        simp only [parseRfc3339, hsplit, hdate, Result.ok_bind, hzone, hclock,
          Result.error_bind]⟩
    obtain ⟨yearText, monthText, dayText, rfl, hplain, hyear, hmonth, hday, hone, htwelve, hpos,
      hle⟩ := parseDate_eq_ok.mp hdate
    obtain ⟨zone, rfl, hreads⟩ := reads_of_parseZone hzone
    obtain ⟨hourText, minuteText, secondDigits, fraction, rfl, hhour, hhle, hminute, hmle,
      hsecond, hsle, hfraction, hmillis⟩ := parseClock_eq_ok.mp hclock
    obtain ⟨monthNumber, rfl⟩ := Int.eq_ofNat_of_zero_le (by omega : 0 ≤ month)
    obtain ⟨dayNumber, rfl⟩ := Int.eq_ofNat_of_zero_le (by omega : 0 ≤ day)
    rw [daysInMonth_eq (by omega)] at hle
    have hisDate : IsDate year monthNumber dayNumber :=
      ⟨by omega, by omega, by omega, by omega⟩
    have hreads : Spelling.Reads
        ⟨yearText, monthText, dayText, marker, hourText, minuteText, secondDigits, fraction, zone⟩
        ⟨year, monthNumber, dayNumber, hour, minute, second, millis, offset⟩ :=
      ⟨hyear, hplain, hmonth, hday, hisDate, hmarker, hhour, hhle, hminute, hmle, hsecond,
        hsle, hfraction, hmillis, hreads⟩
    refine Or.inr ⟨_, _, ?_, hreads, parseRfc3339_of_reads ?_ hreads⟩
    · exact htext
    · exact htext

/-- A zone is found in its text. -/
theorem zone_injective {zone zone' : Zone} {n n' : Int} (h : zone.Reads n) (h' : zone'.Reads n')
    (htext : zone.text = zone'.text) : zone = zone' := by
  have hne : ∀ {marker sign : Char} {hours minutes : List Char},
      [marker] ≠ (Zone.offset sign hours minutes).text := by
    intro marker sign hours minutes heq
    obtain ⟨-, heq⟩ := List.cons.inj heq
    exact List.append_ne_nil_of_right_ne_nil hours (List.cons_ne_nil _ _) heq.symm
  cases zone with
  | utc marker =>
    cases zone' with
    | utc marker' => rw [(List.cons.inj htext).1]
    | offset sign hours minutes => exact absurd htext hne
  | offset sign hours minutes =>
    cases zone' with
    | utc marker' => exact absurd htext.symm hne
    | offset sign' hours' minutes' =>
      obtain ⟨-, -, ho, mi, hhours, hminutes, -⟩ := h
      obtain ⟨-, -, ho', mi', hhours', hminutes', -⟩ := h'
      obtain ⟨rfl, hoffset⟩ := List.cons.inj htext
      obtain ⟨rfl, hcolon⟩ := append_inj_of_not_mem
        (notMem_number hhours (c := ':') rfl rfl) (notMem_number hhours' (c := ':') rfl rfl)
        (Or.inr ⟨minutes, rfl⟩) (Or.inr ⟨minutes', rfl⟩) hoffset
      rw [(List.cons.inj hcolon).2]

/-- A clock is found in its text. -/
theorem clock_injective {f g : Spelling} {m m' : Moment} (h : f.Reads m) (h' : g.Reads m')
    (hclock : f.clock = g.clock) : f.hour = g.hour ∧ f.minute = g.minute ∧
      f.second = g.second ∧ f.fraction = g.fraction := by
  have hcolon : ∀ {n : Int} {text : List Char}, parseI64 text = some n → ':' ∉ text :=
    fun h => notMem_number h rfl rfl
  obtain ⟨hhour, hrest⟩ := append_inj_of_not_mem (hcolon h.hour) (hcolon h'.hour)
    (Or.inr ⟨_, rfl⟩) (Or.inr ⟨_, rfl⟩) hclock
  obtain ⟨hminute, hrest⟩ := append_inj_of_not_mem (hcolon h.minute) (hcolon h'.minute)
    (Or.inr ⟨_, rfl⟩) (Or.inr ⟨_, rfl⟩) (List.cons.inj hrest).2
  have hseconds := (List.cons.inj hrest).2
  have hparts := fun {f m} (h : Spelling.Reads f m) =>
    (parseFraction_secondText (notMem_number h.second (c := '.') rfl rfl) h.fraction).1
  have hsame := hparts h
  rw [hseconds, hparts h'] at hsame
  obtain ⟨hsecond, hfraction⟩ := Prod.mk.inj hsame
  exact ⟨hhour, hminute, hsecond.symm, hfraction.symm⟩

/-- **A text has one spelling.** -/
theorem Spelling.Reads.unique (h : f.Reads m) (h' : g.Reads m') (htext : f.text = g.text) :
    f = g := by
  have hmarker : ∀ {f m}, Spelling.Reads f m → (f.marker == 'T' || f.marker == 't') = true := by
    intro f m h
    rcases h.marker with hm | hm <;> rw [hm] <;> rfl
  have hletters : ∀ {f m}, Spelling.Reads f m → ∀ d ∈ f.date, (d == 'T' || d == 't') = false := by
    intro f m h d hd
    rw [Bool.or_eq_false_iff, beq_eq_false_iff_ne, beq_eq_false_iff_ne]
    constructor
    · rintro rfl
      exact h.notMem_date rfl rfl hd
    · rintro rfl
      exact h.notMem_date rfl rfl hd
  obtain ⟨hdate, hmark, htime⟩ := cut_injective (p := fun d => d == 'T' || d == 't') htext
    (hletters h) (hletters h') (hmarker h) (hmarker h')
  have hparts : ∀ {f m}, Spelling.Reads f m → f.date.splitOn '-' = [f.year, f.month, f.day] := by
    intro f m h
    exact splitOn_eq_triple.mpr ⟨rfl, h.year_plain,
      notMem_of_parseInteger h.month rfl (by decide) fun _ => rfl,
      notMem_of_parseInteger h.day rfl (by decide) fun _ => rfl⟩
  have hdateParts := hparts h
  rw [hdate, hparts h'] at hdateParts
  have hzone := parseZone_of_reads h.zone h.clock_ne_nil
  rw [htime, parseZone_of_reads h'.zone h'.clock_ne_nil] at hzone
  obtain ⟨hclock, -⟩ := Prod.mk.inj (Except.ok.inj hzone)
  rw [← hclock] at htime
  have hsameZone := zone_injective h.zone h'.zone (List.append_cancel_left htime)
  obtain ⟨hhour, hminute, hsecond, hfraction⟩ := clock_injective h h' hclock.symm
  obtain ⟨hyear, hparts⟩ := List.cons.inj hdateParts
  obtain ⟨hmonth, hparts⟩ := List.cons.inj hparts
  obtain ⟨hday, -⟩ := List.cons.inj hparts
  cases f
  cases g
  simp only [Spelling.mk.injEq]
  exact ⟨hyear.symm, hmonth.symm, hday.symm, hmark, hhour, hminute, hsecond, hfraction, hsameZone⟩

end Whole

end Recovery
end RustyDB
