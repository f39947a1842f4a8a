import Deployment.Proofs.Time.Reading

/-! # Years of four digits

What is written down of a point in time has a year of four digits where the day lies in the years
0 to 9999, and as few digits of the fraction as hold all of it.

* **`Calendar.le_year`**, **`Calendar.year_le`** — the days of a year lie between its first and its
  last.
* **`Timestamp.Plain`** — the points in time of these years, outside of leap seconds.
* **`Timestamp.Plain.sound`** — they are read back from their texts.
* **`Timestamp.Plain.length_text`** — how long their texts are. -/

namespace Deployment

namespace Calendar

/-- A year has 365 days at least. -/
theorem daysBeforeMarch_of_lt {y y' : Int} (h : y < y') :
    daysBeforeMarch y + 365 ≤ daysBeforeMarch y' := by
  simp only [daysBeforeMarch]
  omega

/-- A date lies in the year that began in March, or after its end in the months that are left. -/
theorem year_ofDayNumber (n : Int) :
    ∃ (year : Int) (day : Nat), day ≤ 365 ∧ daysBeforeMarch year + day = n + epochShift ∧
      (ofDayNumber n).year = if day < 306 then year else year + 1 := by
  obtain ⟨year, day, hday, -, hsum, hdate⟩ := ofDayNumber_eq n
  refine ⟨year, day, hday, hsum, ?_⟩
  have hmonth : monthOf day < 10 ↔ day < 306 := by
    rw [monthOf]
    omega
  have hmonth_le : monthOf day ≤ 11 := by
    rw [monthOf]
    omega
  rw [hdate]
  -- From March on, the first 306 days end the year that the count began in.
  by_cases h : day < 306
  · have hlate : ¬ monthOf day + 3 ≤ 2 := by omega
    simp only [hmonth.2 h, h, hlate, if_true, if_false, Int.add_zero]
  · have hearly : monthOf day - 9 ≤ 2 := by omega
    simp only [mt hmonth.1 h, h, hearly, if_true, if_false]

/-- From the first day of a year on, dates lie in that year or a later one. -/
theorem le_year {y n : Int} (h : dayNumber ⟨y, 1, 1⟩ ≤ n) : y ≤ (ofDayNumber n).year := by
  obtain ⟨year, day, hday, hsum, hyear⟩ := year_ofDayNumber n
  have hfirst : dayNumber ⟨y, 1, 1⟩ = daysBeforeMarch (y - 1) + 306 - epochShift := by
    simp [dayNumber, daysBeforeMonth]
  rw [hyear]
  by_cases hearlier : year < y - 1
  · have := daysBeforeMarch_of_lt hearlier
    omega
  · by_cases hsame : year = y - 1
    · subst hsame
      split <;> omega
    · split <;> omega

/-- Up to the last day of a year, dates lie in that year or an earlier one. -/
theorem year_le {y n : Int} (h : n ≤ dayNumber ⟨y, 12, 31⟩) : (ofDayNumber n).year ≤ y := by
  obtain ⟨year, day, hday, hsum, hyear⟩ := year_ofDayNumber n
  have hlast : dayNumber ⟨y, 12, 31⟩ = daysBeforeMarch y + 305 - epochShift := by
    simp [dayNumber, daysBeforeMonth]
    omega
  rw [hyear]
  -- A later year would begin behind the day, even counted from its March.
  by_cases hlater : y < year
  · have := daysBeforeMarch_of_lt hlater
    omega
  · by_cases hsame : year = y
    · subst hsame
      split <;> omega
    · split <;> omega

end Calendar

namespace Timestamp

open Calendar

/-- A point in time of the years 0 to 9999, outside of leap seconds. -/
structure Plain (t : Timestamp) : Prop where
  first_le : dayNumber ⟨0, 1, 1⟩ ≤ t.day
  le_last : t.day ≤ dayNumber ⟨9999, 12, 31⟩
  second_lt : t.second < secondsPerDay
  nano_lt : t.nano < nanosPerSecond

namespace Plain

variable {t : Timestamp}

/-- A plain moment can be written. -/
theorem sound (h : t.Plain) : t.Sound where
  second_lt := h.second_lt
  nano_lt := .inl h.nano_lt
  year := by
    have hfirst := le_year h.first_le
    have hlast := year_le h.le_last
    simp only [yearInRange, Bool.and_eq_true, decide_eq_true_eq]
    omega

end Plain

/-- How many digits a fraction of a second is written with: the fewest of 0, 3, 6 and 9 that hold
all of it. -/
structure FractionDigits (nano digits : Nat) : Prop where
  grouped : digits ∈ [0, 3, 6, 9]
  holds : nano % Nat.pow 10 (9 - digits) = 0
  fewest : ∀ k ∈ [0, 3, 6, 9], nano % Nat.pow 10 (9 - k) = 0 → digits ≤ k

/-- A fraction is written with a dot and its digits, or not at all. -/
theorem length_fractionText {nano : Nat} (h : nano < nanosPerSecond) :
    ∃ k, FractionDigits nano k ∧ (fractionText nano).length = if k = 0 then 0 else k + 1 := by
  have hsecond : nanosPerSecond = 1000000000 := rfl
  have hlength : ∀ k n, ('.' :: padded k n).length = k + 1 := fun k n => by
    rw [List.length_cons, (padded_spec k n).1]
  rw [fractionText]
  by_cases hzero : nano = 0
  · exact ⟨0, ⟨by simp, by simp [hzero], fun k _ _ => Nat.zero_le k⟩, by simp [hzero]⟩
  by_cases hmilli : nano % 1000000 = 0
  · refine ⟨3, ⟨by simp, hmilli, ?_⟩, by simp only [hzero, hmilli, if_true, if_false, hlength]; rfl⟩
    simp
    omega
  by_cases hmicro : nano % 1000 = 0
  · refine ⟨6, ⟨by simp, hmicro, ?_⟩, ?_⟩
    · simp
      omega
    · simp only [hzero, hmilli, hmicro, if_true, if_false, hlength]; rfl
  · refine ⟨9, ⟨by simp, Nat.mod_one nano, ?_⟩, ?_⟩
    · simp
      omega
    · simp only [hzero, hmilli, hmicro, if_false, hlength]; rfl

namespace Plain

/-- A year of four digits, and as few digits of the fraction as hold all of it. -/
theorem length_text {t : Timestamp} (h : t.Plain) :
    ∃ k, FractionDigits t.nano k ∧ t.text.length = 20 + if k = 0 then 0 else k + 1 := by
  obtain ⟨k, hdigits, hlength⟩ := length_fractionText h.nano_lt
  refine ⟨k, hdigits, ?_⟩
  -- A plain year has four digits and no sign.
  have hyear : (decide (0 ≤ (ofDayNumber t.day).year) && decide ((ofDayNumber t.day).year ≤ 9999)) =
      true := by
    simp only [Bool.and_eq_true, decide_eq_true_eq]
    exact ⟨le_year h.first_le, year_le h.le_last⟩
  have hwhole : ¬ nanosPerSecond ≤ t.nano := Nat.not_le.2 h.nano_lt
  have hpadded : ∀ k n, (padded k n).length = k := fun k n => (padded_spec k n).1
  rw [text, String.length_ofList, chars]
  simp only [yearText, hyear, hwhole, if_true, if_false, List.length_append, List.length_cons,
    List.length_nil, hpadded, hlength]
  omega

end Plain

end Timestamp

end Deployment
