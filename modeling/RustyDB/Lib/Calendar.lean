import Mathlib

/-!
# Counting days

The proleptic Gregorian calendar, as a sum of the lengths of years and months, and the closed
form that counts in eras of 400 years which begin in March.

* `isLeap`, `yearLength`, `monthLength`, `IsDate` — the calendar.
* `dayCount` — the days from 1970-01-01 to a date, **added up year by year and month by month**.
* `civilDay` — the closed form; `civilDay_eq_dayCount` says that it is the count.
* `dayCount_lt_dayCount` — a later date has a greater count.
-/

namespace Calendar

variable {year year' : Int} {month month' day day' : Nat}

/-! ## The calendar -/

/-- A leap year of the Gregorian calendar. -/
def isLeap (year : Int) : Bool := year % 4 = 0 && (year % 100 ≠ 0 || year % 400 = 0)

/-- The days of a year. -/
def yearLength (year : Int) : Int := if isLeap year then 366 else 365

/-- The days of a month. -/
def monthLength (year : Int) (month : Nat) : Nat :=
  match month with
  | 2 => if isLeap year then 29 else 28
  | 4 => 30
  | 6 => 30
  | 9 => 30
  | 11 => 30
  | _ => 31

/-- A date of the calendar. -/
structure IsDate (year : Int) (month day : Nat) : Prop where
  month_pos : 1 ≤ month
  month_le : month ≤ 12
  day_pos : 1 ≤ day
  day_le : day ≤ monthLength year month

/-- The days from the first day of 1970 to the first day of a year. -/
noncomputable def daysToYear (year : Int) : Int :=
  ∑ y ∈ Finset.Ico 1970 year, yearLength y - ∑ y ∈ Finset.Ico year 1970, yearLength y

/-- The days from the first day of a year to the first day of a month. -/
def daysToMonth (year : Int) (month : Nat) : Int :=
  ∑ m ∈ Finset.Ico 1 month, (monthLength year m : Int)

/-- The days from 1970-01-01 to a date. -/
noncomputable def dayCount (year : Int) (month day : Nat) : Int :=
  daysToYear year + daysToMonth year month + (day - 1)

/-- A year is its months. -/
theorem sum_monthLength (year : Int) : daysToMonth year 13 = yearLength year := by
  rw [daysToMonth, yearLength]
  simp only [Finset.sum_Ico_succ_top, monthLength, Nat.reduceLeDiff, Finset.Ico_self,
    Finset.sum_empty]
  cases isLeap year <;> simp

theorem monthLength_le : monthLength year month ≤ 31 := by
  unfold monthLength
  split
  · split <;> omega
  all_goals omega

theorem yearLength_pos : 0 < yearLength year := by
  rw [yearLength]
  split <;> omega

/-- The day after the last one of a year is the first one of the next year. -/
theorem daysToYear_succ (year : Int) :
    daysToYear (year + 1) = daysToYear year + yearLength year := by
  rw [daysToYear, daysToYear]
  rcases Int.lt_or_le year 1970 with hlt | hle
  · have hsplit : Finset.Ico year 1970 = insert year (Finset.Ico (year + 1) 1970) := by
      ext y
      simp only [Finset.mem_Ico, Finset.mem_insert]
      omega
    have hnot : year ∉ Finset.Ico (year + 1) 1970 := by
      simp only [Finset.mem_Ico]
      omega
    rw [hsplit, Finset.sum_insert hnot, Finset.Ico_eq_empty_of_le (Int.add_one_le_of_lt hlt),
      Finset.Ico_eq_empty_of_le (Int.le_of_lt hlt), Finset.sum_empty]
    omega
  · have hsplit : Finset.Ico 1970 (year + 1) = insert year (Finset.Ico 1970 year) := by
      ext y
      simp only [Finset.mem_Ico, Finset.mem_insert]
      omega
    have hnot : year ∉ Finset.Ico 1970 year := by
      simp only [Finset.mem_Ico]
      omega
    rw [hsplit, Finset.sum_insert hnot, Finset.Ico_eq_empty_of_le hle,
      Finset.Ico_eq_empty_of_le (by omega : (1970 : Int) ≤ year + 1), Finset.sum_empty]
    omega

/-! ## The closed form -/

/-- The day of a year that begins in March. -/
def dayOfYear (month day : Nat) : Int :=
  (153 * ((month : Int) + (if 2 < month then -3 else 9)) + 2) / 5 + day - 1

/-- The days up to an era and in it, from 0000-03-01, for a year that begins in March. -/
def daysToMarch (year : Int) : Int :=
  year / 400 * 146097 + (year % 400 * 365 + year % 400 / 4 - year % 400 / 100)

/-- The year, when it begins in March. -/
def marchYear (year : Int) (month : Nat) : Int := year - (if month ≤ 2 then 1 else 0)

/-- The days from 1970-01-01 to a date, in closed form. -/
def civilDay (year : Int) (month day : Nat) : Int :=
  daysToMarch (marchYear year month) + dayOfYear month day - 719468

/-- A year that begins in March has the leap day of the next one. -/
theorem daysToMarch_succ (year : Int) :
    daysToMarch year = daysToMarch (year - 1) + yearLength year := by
  rw [daysToMarch, daysToMarch, yearLength, isLeap]
  simp only [Bool.and_eq_true, Bool.or_eq_true, decide_eq_true_eq]
  split <;> omega

/-- The first day of a year, in closed form. -/
theorem daysToYear_eq (year : Int) : daysToYear year = daysToMarch (year - 1) + 306 - 719468 := by
  have hstep : ∀ y : Int, daysToYear y = daysToMarch (y - 1) + 306 - 719468 ↔
      daysToYear (y + 1) = daysToMarch (y + 1 - 1) + 306 - 719468 := by
    intro y
    have hmarch := daysToMarch_succ y
    rw [daysToYear_succ, Int.add_sub_cancel]
    omega
  induction year using Int.induction_on with
  | zero =>
    -- From 1970 back to the year 0.
    have hback : ∀ n : Nat, n ≤ 1970 →
        daysToYear (1970 - n) = daysToMarch (1970 - n - 1) + 306 - 719468 := by
      intro n
      induction n with
      | zero =>
        intro _
        rw [Nat.cast_zero, Int.sub_zero, daysToYear, Finset.Ico_self, Finset.sum_empty]
        rfl
      | succ n ih =>
        intro hn
        refine (hstep _).mpr ?_
        have hcast : (1970 : Int) - ((n + 1 : Nat) : Int) + 1 = 1970 - n := by omega
        rw [hcast]
        exact ih (by omega)
    exact hback 1970 (Nat.le_refl _)
  | succ n ih => exact (hstep _).mp ih
  | pred n ih =>
    refine (hstep _).mpr ?_
    rw [Int.sub_add_cancel]
    exact ih

/-- **The closed form is the count**, for every day of a month. -/
theorem civilDay_eq_dayCount (hpos : 1 ≤ month) (hle : month ≤ 12) :
    civilDay year month day = dayCount year month day := by
  have hmarch := daysToMarch_succ year
  rw [civilDay, dayCount, daysToYear_eq, daysToMonth, marchYear, dayOfYear]
  rw [yearLength] at hmarch
  interval_cases month <;>
    simp only [Finset.sum_Ico_succ_top, monthLength, Nat.reduceLeDiff, Finset.Ico_self,
      Finset.sum_empty, if_true, if_false] <;>
    split at hmarch <;> simp_all <;> omega

/-! ## The order of dates -/

theorem daysToYear_le (h : year ≤ year') : daysToYear year ≤ daysToYear year' := by
  induction year', h using Int.leInduction with
  | base => exact Int.le_refl _
  | succ y hy ih =>
    have hpos := @yearLength_pos y
    rw [daysToYear_succ]
    omega

theorem daysToMonth_succ (hpos : 1 ≤ month) :
    daysToMonth year (month + 1) = daysToMonth year month + monthLength year month := by
  rw [daysToMonth, daysToMonth, Finset.sum_Ico_succ_top hpos]

theorem daysToMonth_le (h : month ≤ month') : daysToMonth year month ≤ daysToMonth year month' := by
  refine Finset.sum_le_sum_of_subset_of_nonneg (Finset.Ico_subset_Ico_right h) ?_
  intro m _ _
  exact Int.natCast_nonneg _

/-- A date comes before the next month. -/
theorem IsDate.lt_month (h : IsDate year month day) (hlt : month < month') :
    daysToMonth year month + (day - 1) < daysToMonth year month' := by
  have hnext := @daysToMonth_le year (month + 1) month' hlt
  have hday := h.day_le
  rw [daysToMonth_succ h.month_pos] at hnext
  omega

/-- **A later date** has a greater count. -/
theorem dayCount_lt_dayCount (h : IsDate year month day) (h' : IsDate year' month' day')
    (hlt : year < year' ∨ year = year' ∧ (month < month' ∨ month = month' ∧ day < day')) :
    dayCount year month day < dayCount year' month' day' := by
  rw [dayCount, dayCount]
  have hday := h'.day_pos
  rcases hlt with hyear | ⟨rfl, hmonth | ⟨rfl, hday⟩⟩
  · have hend := h.lt_month (Nat.lt_succ_of_le h.month_le)
    have hnext := daysToYear_le (Int.add_one_le_of_lt hyear)
    have hmonths := @daysToMonth_le year' 1 month' h'.month_pos
    have hfirst : daysToMonth year' 1 = 0 := by rw [daysToMonth, Finset.Ico_self]; rfl
    rw [daysToYear_succ] at hnext
    rw [sum_monthLength] at hend
    omega
  · have hmonths := h.lt_month hmonth
    omega
  · omega

end Calendar
