import Deployment.Data.Stateful
import Deployment.Proofs.Text.Digits
import Deployment.Proofs.Time.Calendar
import Deployment.Time.Reading

/-! # Points in time are read back

* **`Timestamp.Sound`** — the points in time that have a text of their own.
* **`Timestamp.number_digits`** — a number is read from its digits.
* **`Timestamp.ofText_text`** — a sound point in time is read back from its text. -/

namespace Deployment.Timestamp

open Calendar Failing

/-- The second lies in a day and the fraction in a second, which may go on past its end only as a
leap second, and the year can be told. -/
structure Sound (t : Timestamp) : Prop where
  second_lt : t.second < secondsPerDay
  nano_lt : t.nano < nanosPerSecond ∨ t.second % 60 = 59 ∧ t.nano < 2 * nanosPerSecond
  year : yearInRange (ofDayNumber t.day).year = true

/-! ## Digits -/

/-- No digit follows. -/
def NoDigit (rest : List Char) : Prop := ∀ c, rest.head? = some c → c.isDigit = false

/-- A text that begins with something else begins with no digit. -/
theorem noDigit_cons {c : Char} (h : c.isDigit = false) (rest : List Char) :
    NoDigit (c :: rest) := by
  rintro d ⟨⟩
  exact h

/-- A number is read on from digits. -/
theorem moreDigits_append {l rest : List Char} (hl : ∀ c ∈ l, c.isDigit = true) {max n : Nat}
    (hmax : l.length ≤ max) (hn : Nat.ofDigitChars 10 l n ≤ maxNumber) (hr : NoDigit rest) :
    moreDigits max n (l ++ rest) = .ok (Nat.ofDigitChars 10 l n, rest) := by
  induction l generalizing max n with
  | nil =>
    cases max with
    | zero => rfl
    | succ max =>
      cases rest with
      | nil => rfl
      | cons c rest =>
        simp only [List.nil_append, moreDigits, hr c rfl, Bool.false_eq_true, if_false,
          Nat.ofDigitChars_nil]
  | cons c l ih =>
    obtain ⟨max, rfl⟩ : ∃ k, max = k + 1 := ⟨max - 1, by
      simp only [List.length_cons] at hmax; omega⟩
    have hvalue : n * 10 + (c.toNat - 48) = 10 * n + (c.toNat - '0'.toNat) := by
      rw [Nat.mul_comm]
      rfl
    rw [Nat.ofDigitChars_cons] at hn ⊢
    -- The number as a whole fits, so it does after this digit.
    have hfit : 10 * n + (c.toNat - '0'.toNat) ≤ maxNumber :=
      Nat.le_trans (Text.le_ofDigitChars l _) hn
    simp only [List.cons_append, moreDigits, hl c (List.mem_cons_self ..), if_true, hvalue, hfit]
    exact ih (fun d hd => hl d (List.mem_cons_of_mem c hd)) (Nat.le_of_succ_le_succ hmax) hn

/-- A number is read from its digits. -/
theorem number_digits {l rest : List Char} (hl : ∀ c ∈ l, c.isDigit = true) (hne : l ≠ [])
    (max : Nat) (hmax : l.length ≤ max) (hn : Nat.ofDigitChars 10 l 0 ≤ maxNumber)
    (hr : NoDigit rest) : number max (l ++ rest) = .ok (Nat.ofDigitChars 10 l 0, rest) := by
  cases l with
  | nil => exact absurd rfl hne
  | cons c l =>
    rw [List.cons_append, number, if_pos (hl c (List.mem_cons_self ..)), ← List.cons_append]
    exact moreDigits_append hl hmax hn hr

/-- The digits that a number is padded to. -/
theorem padded_spec (k n : Nat) :
    (padded k n).length = k ∧ (∀ c ∈ padded k n, c.isDigit = true) ∧
      Nat.ofDigitChars 10 (padded k n) 0 = n % Nat.pow 10 k := by
  induction k generalizing n with
  | zero => exact ⟨rfl, nofun, (Nat.mod_one n).symm⟩
  | succ k ih =>
    obtain ⟨hlen, hdigits, hvalue⟩ := ih (n / 10)
    -- The last digit; the others are those of a tenth of the number.
    have hlast : ∀ d : Fin 10, (Char.ofNat (48 + d.val)).isDigit = true ∧
        (Char.ofNat (48 + d.val)).toNat - '0'.toNat = d.val := by decide
    obtain ⟨hdigit, hd⟩ := hlast ⟨n % 10, Nat.mod_lt n (by decide)⟩
    have hpow : Nat.pow 10 (k + 1) = 10 * Nat.pow 10 k := Nat.mul_comm _ _
    refine ⟨by rw [padded, List.length_append, hlen]; rfl, fun c hc => ?_, ?_⟩
    · rcases List.mem_append.1 hc with hc | hc
      · exact hdigits c hc
      · obtain rfl := List.mem_singleton.1 hc
        exact hdigit
    · rw [padded, Nat.ofDigitChars_append, Nat.ofDigitChars_cons, Nat.ofDigitChars_nil, hvalue]
      simp only at hd
      rw [hd, hpow, Nat.mod_mul]
      omega

/-- Digits are no blanks. -/
theorem isBlank_of_isDigit {c : Char} (h : c.isDigit = true) : Text.isBlank c = false := by
  have hc := Text.toNat_of_isDigit h
  rw [Bool.eq_false_iff]
  intro hb
  simp only [Text.isBlank, Text.blankRanges, List.any_cons, List.any_nil, Bool.or_false,
    Bool.or_eq_true, Bool.and_eq_true, decide_eq_true_eq] at hb
  omega

/-- Nothing is dropped in front of what is no blank. -/
theorem dropBlanks_cons {c : Char} (h : Text.isBlank c = false) (s : List Char) :
    Text.dropBlanks (c :: s) = c :: s := by
  simp only [Text.dropBlanks, List.dropWhile_cons, h, Bool.false_eq_true, if_false]

/-- No blank stands before digits. -/
theorem dropBlanks_digits {l : List Char} (hl : ∀ c ∈ l, c.isDigit = true) (hne : l ≠ [])
    (rest : List Char) : Text.dropBlanks (l ++ rest) = l ++ rest := by
  cases l with
  | nil => exact absurd rfl hne
  | cons c l => exact dropBlanks_cons (isBlank_of_isDigit (hl c (List.mem_cons_self ..))) _

/-- A number is read from the digits that it is padded to. -/
theorem number_padded {k n max : Nat} (hk : 0 < k) (hmax : k ≤ max) (hn : n < Nat.pow 10 k)
    (hfit : n ≤ maxNumber) {rest : List Char} (hr : NoDigit rest) :
    number max (padded k n ++ rest) = .ok (n, rest) := by
  obtain ⟨hlen, hdigits, hvalue⟩ := padded_spec k n
  rw [Nat.mod_eq_of_lt hn] at hvalue
  have hne : padded k n ≠ [] := by
    rw [← List.length_pos_iff, hlen]
    exact hk
  have h := number_digits hdigits hne max (by rw [hlen]; exact hmax)
    (by rw [hvalue]; exact hfit) hr
  rw [h, hvalue]

/-- Nothing is dropped in front of a padded number. -/
theorem dropBlanks_padded {k : Nat} (hk : 0 < k) (n : Nat) (rest : List Char) :
    Text.dropBlanks (padded k n ++ rest) = padded k n ++ rest := by
  obtain ⟨hlen, hdigits, -⟩ := padded_spec k n
  refine dropBlanks_digits hdigits ?_ rest
  rw [← List.length_pos_iff, hlen]
  exact hk

/-! ## The parts of a point in time -/

/-- A number of two digits is read back, if it is in its bounds. -/
theorem twoDigits_padded {low high n : Nat} (hlow : low ≤ n) (hhigh : n ≤ high) (h : n < 100)
    {rest : List Char} (hr : NoDigit rest) :
    twoDigits low high (padded 2 n ++ rest) = .ok (n, rest) := by
  have hfit : n ≤ maxNumber := Nat.le_trans (Nat.le_of_lt h) (by decide)
  rw [twoDigits, dropBlanks_padded (by decide), number_padded (by decide) (by decide) h hfit hr,
    ok_bind]
  simp only [hlow, hhigh, decide_true, Bool.and_self, if_true, pure_eq]

/-- A separator is read. -/
theorem separator_cons {c : Char} (h : Text.isBlank c = false) (rest : List Char) :
    separator c (c :: rest) = .ok ((), rest) := by
  simp only [separator, dropBlanks_cons h, if_true]

/-- The digits of a year that has a sign. -/
theorem number_year (n : Nat) (hn : n ≤ maxNumber) {rest : List Char} (hr : NoDigit rest) :
    let s := List.replicate (4 - (Nat.toDigits 10 n).length) '0' ++ Nat.toDigits 10 n ++ rest
    number s.length s = .ok (n, rest) := by
  have hdigits : ∀ c ∈ List.replicate (4 - (Nat.toDigits 10 n).length) '0' ++ Nat.toDigits 10 n,
      c.isDigit = true := by
    intro c hc
    rcases List.mem_append.1 hc with hc | hc
    · rw [List.eq_of_mem_replicate hc]
      rfl
    · exact Nat.isDigit_of_mem_toDigits (by decide) (by decide) hc
  -- The zeros in front count for nothing.
  have hvalue : Nat.ofDigitChars 10
      (List.replicate (4 - (Nat.toDigits 10 n).length) '0' ++ Nat.toDigits 10 n) 0 = n := by
    rw [Nat.ofDigitChars_append, Nat.ofDigitChars_replicate_zero, Nat.mul_zero,
      Nat.ofDigitChars_ten_toDigits]
  have h := number_digits hdigits (by simp) ((List.replicate
    (4 - (Nat.toDigits 10 n).length) '0' ++ Nat.toDigits 10 n ++ rest).length)
    (by simp only [List.length_append]; omega) (by rw [hvalue]; exact hn) hr
  rw [hvalue] at h
  exact h

/-- A year in range is read back. -/
theorem year_yearText {y : Int} (hy : yearInRange y = true) {rest : List Char}
    (hr : NoDigit rest) : year (yearText y ++ rest) = .ok (y, rest) := by
  simp only [yearInRange, Bool.and_eq_true, decide_eq_true_eq] at hy
  -- The bound is kept closed; what it is matters only here.
  obtain ⟨bound, hbound⟩ : ∃ b, b = Nat.pow 2 31 := ⟨_, rfl⟩
  have hlarge : bound = 2147483648 := hbound
  have hrange : (decide (-(bound : Int) ≤ y) && decide (y < (bound : Int))) = true := by
    simp only [Bool.and_eq_true, decide_eq_true_eq]
    omega
  have hfit : y.natAbs ≤ maxNumber := Nat.le_trans (m := 262143) (by omega) (by decide)
  rw [yearText]
  split
  next hplain =>
    simp only [Bool.and_eq_true, decide_eq_true_eq] at hplain
    obtain ⟨n, rfl⟩ := Int.eq_ofNat_of_zero_le hplain.1
    have hnumber : number 4 (padded 4 n ++ rest) = .ok (n, rest) :=
      number_padded (by decide) (by decide) (Nat.lt_of_le_of_lt (m := 9999) (by omega) (by decide))
        hfit hr
    have hsign : ∀ c s, padded 4 n ++ rest = c :: s → c ≠ '-' ∧ c ≠ '+' := by
      obtain ⟨hlen, hdigits, -⟩ := padded_spec 4 n
      intro c s hcons
      have hc : c.isDigit = true := by
        cases hl : padded 4 n with
        | nil => simp [hl] at hlen
        | cons d l =>
          rw [hl] at hcons
          obtain rfl := (List.cons.inj hcons).1
          exact hdigits d (hl ▸ List.mem_cons_self ..)
      constructor <;> rintro rfl <;> exact absurd hc (by decide)
    rw [Int.toNat_natCast, year, ← hbound, dropBlanks_padded (by decide)]
    split
    next heq => exact absurd rfl (hsign _ _ heq).1
    next heq => exact absurd rfl (hsign _ _ heq).2
    next =>
      simp only [hnumber, ok_bind, pure_eq, hrange, if_true]
  next hplain =>
    have hnumber := number_year y.natAbs hfit hr
    by_cases hneg : y < 0
    · have hback : -((y.natAbs : Nat) : Int) = y := by omega
      rw [year, ← hbound, if_pos hneg, List.cons_append, dropBlanks_cons rfl]
      simp only [hnumber, ok_bind, pure_eq, hback, hrange, if_true]
    · have hback : ((y.natAbs : Nat) : Int) = y := by omega
      rw [year, ← hbound, if_neg hneg, List.cons_append, dropBlanks_cons rfl]
      simp only [hnumber, ok_bind, pure_eq, hback, hrange, if_true]

/-- The fraction of a second is read from its first digits. -/
theorem fraction_padded {k n : Nat} (hk : 0 < k) (hmax : k ≤ 9) (hn : n < Nat.pow 10 k) :
    fraction ('.' :: padded k n ++ ['Z']) = .ok (n * Nat.pow 10 (9 - k), ['Z']) := by
  have hpow : Nat.pow 10 k ≤ Nat.pow 10 9 := Nat.pow_le_pow_right (by decide) hmax
  have hfit : n ≤ maxNumber :=
    Nat.le_trans (Nat.le_of_lt (Nat.lt_of_lt_of_le hn hpow)) (by decide)
  have hnumber : number 9 (padded k n ++ ['Z']) = .ok (n, ['Z']) :=
    number_padded hk hmax hn hfit (noDigit_cons rfl [])
  have hlen : (padded k n ++ ['Z']).length - ['Z'].length = k := by
    rw [List.length_append, (padded_spec k n).1, Nat.add_sub_cancel]
  simp only [List.cons_append, fraction, hnumber, ok_bind, hlen, pure_eq]
  rfl

/-- The fraction of a second is read back from its text. -/
theorem fraction_fractionText {nano : Nat} (h : nano < nanosPerSecond) :
    fraction (fractionText nano ++ ['Z']) = .ok (nano, ['Z']) := by
  have hsecond : nanosPerSecond = 1000000000 := rfl
  rw [fractionText]
  split
  next hzero => rw [hzero]; rfl
  next =>
    split
    -- Three, six or nine digits, whichever is the fewest that lose nothing.
    next hmilli =>
      have hscale : nano / 1000000 * Nat.pow 10 (9 - 3) = nano :=
        Nat.div_mul_cancel (Nat.dvd_of_mod_eq_zero hmilli)
      rw [fraction_padded (by decide) (by decide)
        (Nat.lt_of_lt_of_le (m := 1000) (by omega) (by decide)), hscale]
    next =>
      split
      next hmicro =>
        have hscale : nano / 1000 * Nat.pow 10 (9 - 6) = nano :=
          Nat.div_mul_cancel (Nat.dvd_of_mod_eq_zero hmicro)
        rw [fraction_padded (by decide) (by decide)
          (Nat.lt_of_lt_of_le (m := 1000000) (by omega) (by decide)), hscale]
      next =>
        have hscale : nano * Nat.pow 10 (9 - 9) = nano := Nat.mul_one nano
        rw [fraction_padded (by decide) (by decide) h, hscale]

/-- What follows the seconds begins with no digit. -/
theorem noDigit_fractionText (nano : Nat) : NoDigit (fractionText nano ++ ['Z']) := by
  rw [fractionText]
  split
  · exact noDigit_cons rfl []
  · split
    · exact noDigit_cons rfl _
    · split <;> exact noDigit_cons rfl _

/-- A date is read back from its text. -/
theorem date_text (n : Int) (h : yearInRange (ofDayNumber n).year = true) {rest : List Char}
    (hr : NoDigit rest) :
    date (yearText (ofDayNumber n).year ++ '-' :: (padded 2 (ofDayNumber n).month ++
      '-' :: (padded 2 (ofDayNumber n).day ++ rest))) = .ok (ofDayNumber n, rest) := by
  have hvalid := isValid_ofDayNumber n
  generalize ofDayNumber n = d at *
  -- Two digits hold any day, since no month has more than 31.
  have hdays : daysInMonth d.year d.month ≤ 31 := by
    unfold daysInMonth
    split
    case h_1 => split <;> decide
    all_goals decide
  simp only [Date.isValid, Bool.and_eq_true, decide_eq_true_eq] at hvalid
  obtain ⟨⟨⟨hmonth, hmonth'⟩, hday⟩, hday'⟩ := hvalid
  have hdash : ∀ s, NoDigit ('-' :: s) := noDigit_cons rfl
  rw [date, year_yearText h (hdash _)]
  simp only [ok_bind, separator_cons (c := '-') rfl]
  rw [twoDigits_padded hmonth hmonth' (by omega) (hdash _)]
  simp only [ok_bind, separator_cons (c := '-') rfl]
  rw [twoDigits_padded hday (Nat.le_trans hday' hdays) (by omega) hr]
  rfl

/-- A time of day is read back from its text; a leap second has its own. -/
theorem time_text {second nano : Nat} (hs : second < secondsPerDay)
    (hn : nano < nanosPerSecond ∨ second % 60 = 59 ∧ nano < 2 * nanosPerSecond) :
    time (padded 2 (second / 3600) ++ ':' :: (padded 2 (second / 60 % 60) ++
      ':' :: (padded 2 (second % 60 + if nanosPerSecond ≤ nano then 1 else 0) ++
        (fractionText (if nanosPerSecond ≤ nano then nano - nanosPerSecond else nano) ++ ['Z'])))) =
      .ok ((second, nano), ['Z']) := by
  have hday : secondsPerDay = 86400 := rfl
  have hcolon : ∀ s, NoDigit (':' :: s) := noDigit_cons rfl
  -- How long a second is does not matter, so it is not looked into.
  obtain ⟨whole, hwhole⟩ : ∃ n, n = nanosPerSecond := ⟨_, rfl⟩
  rw [← hwhole] at hn ⊢
  rw [time, ← hwhole, twoDigits_padded (Nat.zero_le _) (by omega) (by omega) (hcolon _)]
  simp only [ok_bind, separator_cons (c := ':') rfl]
  rw [twoDigits_padded (Nat.zero_le _) (by omega) (by omega) (hcolon _)]
  simp only [ok_bind, separator_cons (c := ':') rfl]
  by_cases hleap : whole ≤ nano
  · obtain ⟨hlast, hlt⟩ : second % 60 = 59 ∧ nano < 2 * whole :=
      hn.resolve_left (Nat.not_lt.2 hleap)
    simp only [hleap, if_true, hlast]
    rw [twoDigits_padded (Nat.zero_le _) (by decide) (by decide) (noDigit_fractionText _)]
    simp only [ok_bind]
    rw [fraction_fractionText (by omega)]
    have hclock : second / 3600 * 3600 + second / 60 % 60 * 60 + 59 = second := by omega
    simp only [ok_bind, if_true, pure_eq, hclock, Nat.sub_add_cancel hleap]
  · simp only [hleap, if_false, Nat.add_zero]
    rw [twoDigits_padded (Nat.zero_le _) (by omega) (by omega) (noDigit_fractionText _)]
    simp only [ok_bind]
    rw [fraction_fractionText (hwhole ▸ Nat.lt_of_not_le hleap)]
    have hclock : second / 3600 * 3600 + second / 60 % 60 * 60 + second % 60 = second := by omega
    have hplain : ¬ second % 60 = 60 := by omega
    simp only [ok_bind, hplain, if_false, pure_eq, hclock]

/-- The parts of a sound point in time are those of no other. -/
theorem ofParts_eq {t : Timestamp} (h : t.Sound) :
    ofParts (ofDayNumber t.day) t.second t.nano 0 = .ok t := by
  have hday : (secondsPerDay : Int) = 86400 := rfl
  have hlt : (t.second : Int) < secondsPerDay := Int.ofNat_lt.2 h.second_lt
  rw [hday] at hlt
  have hmoment : t.day * (secondsPerDay : Int) + (t.second : Int) - 0 =
      t.second + t.day * 86400 := by
    rw [hday]
    omega
  have hquot : ((t.second : Int) + t.day * 86400) / (secondsPerDay : Int) = t.day := by
    rw [hday]
    omega
  have hrem : (((t.second : Int) + t.day * 86400) % (secondsPerDay : Int)).toNat = t.second := by
    rw [hday]
    omega
  rw [ofParts, isValid_ofDayNumber, h.year, dayNumber_ofDayNumber]
  simp only [hmoment, hquot, hrem, h.year]
  rfl

/-- A sound point in time is read back from its text. -/
theorem ofText_text {t : Timestamp} (h : t.Sound) : ofText t.text = .ok t := by
  have hT : ∀ s, NoDigit ('T' :: s) := noDigit_cons rfl
  rw [ofText, text, String.toList_ofList, ofChars, chars]
  simp only [List.append_assoc, List.cons_append]
  rw [date_text t.day h.year (hT _), ok_bind]
  simp only [middle, decide_true, Bool.or_true, Bool.true_or, if_true, ok_bind]
  rw [time_text h.second_lt h.nano_lt]
  exact ofParts_eq h

end Deployment.Timestamp
