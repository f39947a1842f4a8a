import Deployment.Time.Calendar

/-! # Days and dates

The calendar repeats itself every 400 years. A day is found in it by the centuries, the groups of
four years, and the years that have passed since the cycle began, all counted from March.

* **`Calendar.Located`** — where a day lies in the calendar.
* **`Calendar.ofDayNumber_eq`** — a date by the day of its year.
* **`Calendar.dayNumber_ofDayNumber`** — the date of a number has that number.
* **`Calendar.isValid_ofDayNumber`** — the date of a number exists. -/

namespace Deployment.Calendar

/-- A day lies `day` days behind the first of March of year `year` of group `group` of century
`century` of its cycle. The last day of a year with 366 days ends a group, and a century only
if it ends the cycle too. -/
structure Located (n : Nat) (century group year day : Nat) : Prop where
  sum : n = 36524 * century + 1461 * group + 365 * year + day
  century_le : century ≤ 3
  group_le : group ≤ 24
  year_le : year ≤ 3
  day_le : day ≤ 365
  last : day = 365 → year = 3 ∧ (group = 24 → century = 3)

/-- Every day of a cycle is located. -/
theorem exists_located {n : Nat} (h : n < 146097) :
    ∃ century group year day, Located n century group year day := by
  let century := min (n / 36524) 3
  let inCentury := n - 36524 * century
  let group := inCentury / 1461
  let inGroup := inCentury - 1461 * group
  let year := min (inGroup / 365) 3
  refine ⟨century, group, year, inGroup - 365 * year, ?_, ?_, ?_, ?_, ?_, ?_⟩
  all_goals grind

namespace Located

variable {n century group year day : Nat}

/-- The year of the cycle that a day lies in. -/
theorem yearOfCycle (h : Located n century group year day) :
    (n - n / 1460 + n / 36524 - n / 146096) / 365 = 100 * century + 4 * group + year := by
  obtain ⟨sum, century_le, group_le, year_le, day_le, last⟩ := h
  -- The very last day of the cycle is the only one that `n / 146096` counts.
  by_cases hend : n = 146096
  · have hcentury : century = 3 := by omega
    have hgroup : group = 24 := by omega
    have hyear : year = 3 := by omega
    subst hend hcentury hgroup hyear
    rfl
  have hcycle : n / 146096 = 0 := by omega
  have hcentury : n / 36524 = century := by omega
  rw [hcycle, hcentury]
  by_cases hlong : 1460 ≤ 24 * century + group + 365 * year + day
  · have hgroup : n / 1460 = 25 * century + group + 1 := by omega
    have hdays : n - (25 * century + group + 1) + century - 0 =
        365 * (100 * century + 4 * group + year) + (day - 1) := by omega
    omega
  · have hgroup : n / 1460 = 25 * century + group := by omega
    have hdays : n - (25 * century + group) + century - 0 =
        365 * (100 * century + 4 * group + year) + day := by omega
    omega

/-- The day of its year. -/
theorem dayOfYear (h : Located n century group year day) :
    n - (365 * (100 * century + 4 * group + year) + (100 * century + 4 * group + year) / 4 -
      (100 * century + 4 * group + year) / 100) = day := by
  obtain ⟨sum, century_le, group_le, year_le, -, -⟩ := h
  have hgroups : (100 * century + 4 * group + year) / 4 = 25 * century + group := by omega
  have hcenturies : (100 * century + 4 * group + year) / 100 = century := by omega
  rw [hgroups, hcenturies]
  omega

/-- The days before the year, from the beginning of year 0. -/
theorem daysBeforeMarch (h : Located n century group year day) (cycle : Int) :
    Calendar.daysBeforeMarch (cycle * 400 + (100 * century + 4 * group + year : Nat)) + day =
      cycle * 146097 + n := by
  obtain ⟨sum, century_le, group_le, year_le, -, -⟩ := h
  simp only [Calendar.daysBeforeMarch]
  omega

/-- A day that only leap years have lies in the year before a leap year. -/
theorem isLeap (h : Located n century group year day) (hday : day = 365) (cycle : Int) :
    Calendar.isLeap (cycle * 400 + (100 * century + 4 * group + year : Nat) + 1) = true := by
  obtain ⟨sum, century_le, group_le, year_le, -, last⟩ := h
  simp only [Calendar.isLeap, Bool.and_eq_true, Bool.or_eq_true, decide_eq_true_eq, ne_eq]
  omega

end Located

/-- The month that begins on or last before a day of the year, counted from March. -/
def monthOf (day : Nat) : Nat := (5 * day + 2) / 153

/-- The date of a number, by the day of its year. -/
theorem ofDayNumber_eq (n : Int) :
    ∃ (year : Int) (day : Nat), day ≤ 365 ∧ (day = 365 → isLeap (year + 1) = true) ∧
      daysBeforeMarch year + day = n + epochShift ∧
      ofDayNumber n =
        ⟨year + (if (if monthOf day < 10 then monthOf day + 3 else monthOf day - 9) ≤ 2 then 1
            else 0),
          if monthOf day < 10 then monthOf day + 3 else monthOf day - 9,
          day - daysBeforeMonth (monthOf day) + 1⟩ := by
  -- Four hundred years are 146097 days, and what is left is placed in its century, leap group and
  -- year.
  let cycle := (n + epochShift) / 146097
  let ofCycle := (n + epochShift - cycle * 146097).toNat
  have hcycle : ofCycle < 146097 := by omega
  obtain ⟨century, group, year, day, h⟩ := exists_located hcycle
  refine ⟨cycle * 400 + (100 * century + 4 * group + year : Nat), day, h.day_le,
    fun hday => h.isLeap hday cycle, ?_, ?_⟩
  · rw [h.daysBeforeMarch cycle]
    omega
  · simp only [ofDayNumber, monthOf]
    rw [h.yearOfCycle, h.dayOfYear]
    rfl

/-- The date of a number has that number. -/
@[simp] theorem dayNumber_ofDayNumber (n : Int) : dayNumber (ofDayNumber n) = n := by
  obtain ⟨year, day, hday, -, hsum, hdate⟩ := ofDayNumber_eq n
  have hmonth : monthOf day ≤ 11 := by
    rw [monthOf]
    omega
  have hbefore : daysBeforeMonth (monthOf day) ≤ day := by
    rw [monthOf, daysBeforeMonth]
    omega
  rw [hdate, dayNumber]
  -- Years are counted from March here, so January and February are moved to the next one.
  by_cases hm : monthOf day < 10
  · have hlate : ¬ monthOf day + 3 ≤ 2 := by omega
    simp only [hm, if_true, hlate, if_false, Nat.add_sub_cancel, Int.add_zero]
    omega
  · have hearly : monthOf day - 9 ≤ 2 := by omega
    have hback : monthOf day - 9 + 9 = monthOf day := by omega
    simp only [hm, if_false, hearly, if_true, hback, Int.add_sub_cancel]
    omega

/-- The date of a number exists. -/
@[simp] theorem isValid_ofDayNumber (n : Int) : (ofDayNumber n).isValid = true := by
  obtain ⟨year, day, hday, hleap, -, hdate⟩ := ofDayNumber_eq n
  have hlow : 153 * monthOf day ≤ 5 * day + 2 := by
    rw [monthOf]
    omega
  have hhigh : 5 * day + 2 < 153 * monthOf day + 153 := by
    rw [monthOf]
    omega
  have hmonth : monthOf day ≤ 11 := by omega
  rw [hdate]
  generalize monthOf day = m at *
  by_cases hlast : m = 11
  · -- The last month is the one that depends on the year.
    subst hlast
    simp only [Date.isValid, daysInMonth, daysBeforeMonth]
    cases hleapYear : isLeap (year + 1) with
    | true =>
      simp [hleapYear]
      omega
    | false =>
      have hnot : day ≠ 365 := fun h => absurd (hleap h) (by rw [hleapYear]; decide)
      simp [hleapYear]
      omega
  · have hcases : m = 0 ∨ m = 1 ∨ m = 2 ∨ m = 3 ∨ m = 4 ∨ m = 5 ∨ m = 6 ∨ m = 7 ∨ m = 8 ∨
        m = 9 ∨ m = 10 := by omega
    rcases hcases with rfl | rfl | rfl | rfl | rfl | rfl | rfl | rfl | rfl | rfl | rfl
    all_goals
      simp [Date.isValid, daysInMonth, daysBeforeMonth]
      omega

end Deployment.Calendar
