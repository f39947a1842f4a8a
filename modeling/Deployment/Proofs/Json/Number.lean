import Deployment.Proofs.Json.Step
import Deployment.Proofs.Text.Digits

/-! # Natural numbers are read back

* **`Reader.takeFitting_digits`** — digits that fit into 64 bits are all taken.
* **`Reader.gives_number`** — a natural number is read from its digits. -/

namespace Deployment.Json

open Utf8 Text

/-- The byte of a digit. -/
def digitByte (c : Char) : UInt8 := UInt8.ofNat c.toNat

/-- The byte of a digit has the number of its character. -/
theorem toNat_digitByte {c : Char} (h : c.isDigit = true) : (digitByte c).toNat = c.toNat := by
  have := toNat_of_isDigit h
  rw [digitByte, UInt8.toNat_ofNat', Nat.mod_eq_of_lt (by omega)]

/-- The byte of a digit is one. -/
theorem Reader.isDigit_digitByte {c : Char} (h : c.isDigit = true) :
    isDigit (digitByte c) = true := by
  have hn := toNat_of_isDigit h
  have hb := toNat_digitByte h
  simp only [isDigit, Bool.and_eq_true, decide_eq_true_eq, UInt8.le_iff_toNat_le, hb]
  exact hn

/-- No digit is a blank. -/
theorem Reader.isBlank_of_isDigit {b : UInt8} (h : isDigit b = true) : isBlank b = false := by
  rw [Bool.eq_false_iff]
  intro hb
  simp only [isBlank, Bool.or_eq_true, decide_eq_true_eq] at hb
  rcases hb with ((rfl | rfl) | rfl) | rfl <;> exact absurd h (by decide)

/-- Natural numbers are written as their decimal digits. -/
theorem encode_natural (n : Nat) :
    encode (toString (n : Int)) = (Nat.toDigits 10 n).map digitByte := by
  have htext : toString (n : Int) = String.ofList (Nat.toDigits 10 n) := rfl
  have hchars : ∀ l : List Char, (∀ c ∈ l, c.isDigit = true) →
      l.flatMap String.utf8EncodeChar = l.map digitByte := by
    intro l hl
    induction l with
    | nil => rfl
    | cons c l ih =>
      have hc := toNat_of_isDigit (hl c (List.mem_cons_self ..))
      rw [List.flatMap_cons, encodeChar_ascii (by omega), List.map_cons,
        ih fun d hd => hl d (List.mem_cons_of_mem c hd)]
      rfl
  rw [htext, encode_ofList]
  exact hchars _ fun c hc => Nat.isDigit_of_mem_toDigits (by decide) (by decide) hc

/-- The first byte of a natural number is a digit. -/
theorem starts_natural (n : Nat) :
    ∃ b more, encode (toString (n : Int)) = b :: more ∧ Reader.isDigit b = true := by
  rw [encode_natural]
  cases hd : Nat.toDigits 10 n with
  | nil => exact absurd hd Nat.toDigits_ne_nil
  | cons c l =>
    have hc : c.isDigit = true :=
      Nat.isDigit_of_mem_toDigits (by decide) (by decide) (hd ▸ List.mem_cons_self ..)
    exact ⟨digitByte c, l.map digitByte, rfl, Reader.isDigit_digitByte hc⟩

/-- A number starts with a digit or with a minus. -/
theorem starts_number (n : Int) :
    ∃ b more, encode (toString n) = b :: more ∧ (b = 0x2D ∨ Reader.isDigit b = true) := by
  cases n with
  | ofNat n =>
    obtain ⟨b, more, h, hb⟩ := starts_natural n
    exact ⟨b, more, h, .inr hb⟩
  | negSucc n =>
    have htext : toString (Int.negSucc n) = "-" ++ Nat.repr (n + 1) := rfl
    exact ⟨0x2D, encode (Nat.repr (n + 1)), by rw [htext, encode_append]; rfl, .inl rfl⟩

namespace Reader

/-- The byte of a digit has the value of the digit. -/
theorem digit_digitByte {c : Char} (h : c.isDigit = true) :
    digit (digitByte c) = c.toNat - 48 := by
  rw [digit, toNat_digitByte h]

/-- Behind a value no digit, point or exponent follows. -/
theorem Ends.cases {rest : List UInt8} (h : Ends rest) :
    rest = [] ∨ ∃ b more, rest = b :: more ∧ isDigit b = false ∧
      b ∈ [0x20, 0x0A, 0x09, 0x0D, 0x2C, 0x5D, 0x7D] := by
  cases rest with
  | nil => exact .inl rfl
  | cons b more =>
    have hb : b ∈ [(0x20 : UInt8), 0x0A, 0x09, 0x0D, 0x2C, 0x5D, 0x7D] := by
      have := h b rfl
      simp only [isBlank, Bool.or_eq_true, decide_eq_true_eq] at this
      simp only [List.mem_cons, List.not_mem_nil, or_false]
      rcases this with ((((h | h) | h) | h) | h | h | h) <;> simp [h]
    refine .inr ⟨b, more, rfl, ?_, hb⟩
    simp only [List.mem_cons, List.not_mem_nil, or_false] at hb
    rcases hb with rfl | rfl | rfl | rfl | rfl | rfl | rfl <;> rfl

/-- All digits up to the end of a number are taken. -/
theorem spanDigits_map {l : List Char} (hl : ∀ c ∈ l, c.isDigit = true) {rest : List UInt8}
    (hr : ∀ b, rest.head? = some b → isDigit b = false) (taken : List UInt8) (p : Position) :
    ∃ p', spanDigits (l.map digitByte ++ rest) taken p =
      (taken.reverse ++ l.map digitByte, ⟨rest, p'⟩) := by
  induction l generalizing taken p with
  | nil =>
    refine ⟨p, ?_⟩
    rw [List.map_nil, List.nil_append, List.append_nil]
    cases rest with
    | nil => rfl
    | cons b rest => simp only [spanDigits, hr b rfl, Bool.false_eq_true, if_false]
  | cons c l ih =>
    obtain ⟨p', hp'⟩ := ih (fun d hd => hl d (List.mem_cons_of_mem c hd))
      (digitByte c :: taken) (p.advance (digitByte c))
    refine ⟨p', ?_⟩
    simp only [List.map_cons, List.cons_append, spanDigits,
      isDigit_digitByte (hl c (List.mem_cons_self ..)), if_true, hp', List.reverse_cons,
      List.append_assoc, List.nil_append]

/-- Digits whose number fits into 64 bits are all taken. -/
theorem takeFitting_digits {l : List Char} (hl : ∀ c ∈ l, c.isDigit = true) {value : Nat}
    (h : Nat.ofDigitChars 10 l value ≤ maxWord) (count : Nat) :
    takeFitting (l.map digitByte) value count =
      (Nat.ofDigitChars 10 l value, count + l.length) := by
  induction l generalizing value count with
  | nil => simp [takeFitting]
  | cons c l ih =>
    have hvalue : value * 10 + digit (digitByte c) = 10 * value + (c.toNat - '0'.toNat) := by
      rw [digit_digitByte (hl c (List.mem_cons_self ..)), Nat.mul_comm]
      rfl
    rw [Nat.ofDigitChars_cons] at h ⊢
    -- The number as a whole fits, so each of its beginnings does.
    have hfit : ¬ maxWord < 10 * value + (c.toNat - '0'.toNat) :=
      Nat.not_lt.2 (Nat.le_trans (le_ofDigitChars l _) h)
    rw [List.map_cons, takeFitting, hvalue]
    simp only [hfit, if_false]
    rw [ih (fun d hd => hl d (List.mem_cons_of_mem c hd)) h, List.length_cons]
    congr 1
    omega

/-- Digits are read up to where a number ends. -/
theorem gives_digits {l : List Char} (hl : ∀ c ∈ l, c.isDigit = true) {rest : List UInt8}
    (hr : Ends rest) : Gives digits (l.map digitByte ++ rest) (l.map digitByte) rest := by
  have hstop : ∀ b, rest.head? = some b → isDigit b = false := by
    rcases hr.cases with rfl | ⟨b, more, rfl, hb, -⟩
    · exact nofun
    · rintro c ⟨⟩
      exact hb
  intro p
  obtain ⟨p', hp'⟩ := spanDigits_map hl hstop [] p
  refine ⟨p', ?_⟩
  simp only [digits, hp', List.reverse_nil, List.nil_append]

/-- A natural number of at most 64 bits is read from its digits. -/
theorem gives_number {n : Nat} (h : n ≤ maxWord) {rest : List UInt8} (hr : Ends rest) :
    Gives number (encode (toString (n : Int)) ++ rest) (.natural n) rest := by
  have hdigits : ∀ c ∈ Nat.toDigits 10 n, c.isDigit = true := fun c hc =>
    Nat.isDigit_of_mem_toDigits (by decide) (by decide) hc
  have hvalue : Nat.ofDigitChars 10 (Nat.toDigits 10 n) 0 = n := Nat.ofDigitChars_ten_toDigits
  rw [encode_natural]
  rcases toDigits_zero_or n with hzero | ⟨c, l, hd, hc⟩
  · rw [hzero] at hvalue ⊢
    obtain rfl : 0 = n := hvalue
    rcases hr.cases with rfl | ⟨b, more, rfl, -, hb⟩
    · exact fun p => ⟨_, rfl⟩
    · simp only [List.mem_cons, List.not_mem_nil, or_false] at hb
      rcases hb with rfl | rfl | rfl | rfl | rfl | rfl | rfl <;> exact fun p => ⟨_, rfl⟩
  · rw [hd] at hdigits hvalue ⊢
    have hb : isDigit (digitByte c) = true := isDigit_digitByte (hdigits c (List.mem_cons_self ..))
    have hsign : digitByte c ≠ 0x2D := by
      intro he
      rw [he] at hb
      exact absurd hb (by decide)
    have hnonzero : digitByte c ≠ 0x30 := by
      intro he
      have := congrArg UInt8.toNat he
      rw [toNat_digitByte (hdigits c (List.mem_cons_self ..))] at this
      exact hc (Char.toNat_inj.1 this)
    refine .bind gives_peek ?_
    split
    next he => exact absurd (Option.some.inj he) hsign
    next =>
      refine .bind gives_peek ?_
      simp only [hb, Bool.not_true, Bool.false_eq_true, if_false, hnonzero]
      refine .bind (gives_digits hdigits hr) ?_
      simp only [takeFitting_digits hdigits (hvalue ▸ h), hvalue]
      -- No digit is left over, so the number is kept as it is.
      have hextra : (((c :: l).map digitByte).length : Int) -
          ((0 + (c :: l).length : Nat) : Int) = 0 := by
        rw [List.length_map, Nat.zero_add, Int.sub_self]
      simp only [hextra]
      rcases hr.cases with rfl | ⟨b, more, rfl, -, hb⟩
      · exact fun p => ⟨_, rfl⟩
      · simp only [List.mem_cons, List.not_mem_nil, or_false] at hb
        rcases hb with rfl | rfl | rfl | rfl | rfl | rfl | rfl <;> exact fun p => ⟨_, rfl⟩

end Reader

end Deployment.Json
