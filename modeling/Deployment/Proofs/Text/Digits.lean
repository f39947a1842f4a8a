/-! # Decimal digits

* **`Text.toDigits_zero_or`** — only zero starts with a zero.
* **`Text.le_ofDigitChars`** — more digits do not make a number smaller. -/

namespace Deployment.Text

/-- The code points of digits. -/
theorem toNat_of_isDigit {c : Char} (h : c.isDigit = true) : 48 ≤ c.toNat ∧ c.toNat ≤ 57 := by
  simp only [Char.isDigit, Bool.and_eq_true, decide_eq_true_eq] at h
  exact h

/-- A number that starts with zero has no other digits. -/
theorem toDigits_zero_or (n : Nat) :
    Nat.toDigits 10 n = ['0'] ∨ ∃ c l, Nat.toDigits 10 n = c :: l ∧ c ≠ '0' := by
  induction n using Nat.base_induction 10 (by decide) with
  | single m hm =>
    have hall : ∀ m : Fin 10, m.val.digitChar = '0' ∨ m.val.digitChar ≠ '0' := by decide
    rw [Nat.toDigits_of_lt_base hm]
    rcases hall ⟨m, hm⟩ with h | h
    · exact .inl (by rw [h])
    · exact .inr ⟨_, [], rfl, h⟩
  | digit m k hk hm ih =>
    rw [← Nat.toDigits_append_toDigits (by decide) hm hk]
    rcases ih with h | ⟨c, l, h, hc⟩
    · have := congrArg (Nat.ofDigitChars 10 · 0) h
      rw [Nat.ofDigitChars_ten_toDigits] at this
      exact absurd this (by simp [Nat.ofDigitChars]; omega)
    · exact .inr ⟨c, _, by rw [h, List.cons_append], hc⟩

/-- More digits do not make a number smaller. -/
theorem le_ofDigitChars (l : List Char) (n : Nat) : n ≤ Nat.ofDigitChars 10 l n := by
  induction l generalizing n with
  | nil => simp
  | cons c l ih =>
    have := ih (10 * n + (c.toNat - 48))
    rw [Nat.ofDigitChars_cons]
    exact Nat.le_trans (by omega) this

end Deployment.Text
