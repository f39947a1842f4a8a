import Deployment.Text.Utf8

/-! # The bytes of texts

* **`Utf8.encode_eq`** — a text is encoded character by character.
* **`Utf8.encodeChar_ascii`**, **`Utf8.high_of_mem`** — a character of ASCII is one byte, and all
  bytes of any other are beyond ASCII.
* **`Utf8.encode_lt_iff`** — texts and their bytes are in the same order. -/

namespace Deployment.Utf8

/-- Two texts are encoded one after the other. -/
@[simp] theorem encode_append (s t : String) : encode (s ++ t) = encode s ++ encode t := by
  simp [encode]

/-- A text is encoded character by character. -/
theorem encode_ofList (l : List Char) :
    encode (String.ofList l) = l.flatMap String.utf8EncodeChar := by
  simp [encode, List.utf8Encode]

/-- A text is encoded character by character. -/
theorem encode_eq (s : String) : encode s = s.toList.flatMap String.utf8EncodeChar := by
  rw [← encode_ofList, String.ofList_toList]

/-- A character is encoded as the core library encodes it. -/
theorem encodeChar_eq (c : Char) : encodeChar c = String.utf8EncodeChar c := by
  simp [encodeChar, encode_eq]

/-- A character of ASCII is one byte. -/
theorem encodeChar_ascii {c : Char} (h : c.toNat < 128) :
    String.utf8EncodeChar c = [UInt8.ofNat c.toNat] := by
  have hv : c.val.toNat ≤ 0x7f := Nat.le_of_lt_succ h
  simp only [String.utf8EncodeChar, hv, if_true, Char.toNat]

/-- The bytes of a character beyond ASCII are beyond ASCII. -/
theorem high_of_mem {c : Char} (h : 128 ≤ c.toNat) {b : UInt8}
    (hb : b ∈ String.utf8EncodeChar c) : 0x80 ≤ b := by
  have hv : ¬ c.val.toNat ≤ 0x7f := Nat.not_le_of_lt h
  -- Each byte is a marker and at most as much as the marker leaves room for.
  have hbyte : ∀ n : Nat, 0x80 ≤ n → n < 256 → 0x80 ≤ UInt8.ofNat n := by
    intro n hn hn'
    rw [UInt8.le_iff_toNat_le, UInt8.toNat_ofNat', Nat.mod_eq_of_lt hn']
    exact hn
  simp only [String.utf8EncodeChar, hv, if_false] at hb
  split at hb
  · simp only [List.mem_cons, List.not_mem_nil, or_false] at hb
    rcases hb with rfl | rfl <;> exact hbyte _ (by omega) (by omega)
  · split at hb
    · simp only [List.mem_cons, List.not_mem_nil, or_false] at hb
      rcases hb with rfl | rfl | rfl <;> exact hbyte _ (by omega) (by omega)
    · simp only [List.mem_cons, List.not_mem_nil, or_false] at hb
      rcases hb with rfl | rfl | rfl | rfl <;> exact hbyte _ (by omega) (by omega)

/-! ## Order -/

/-- The bytes of a smaller character come first, whatever stands behind them. -/
theorem encodeChar_append_lt {c d : Char} (h : c < d) (rest rest' : List UInt8) :
    String.utf8EncodeChar c ++ rest < String.utf8EncodeChar d ++ rest' := by
  have hlt : c.val.toNat < d.val.toNat := h
  have hd : d.val.toNat < 0x110000 := by
    have := d.valid
    simp only [UInt32.isValidChar, Nat.isValidChar] at this
    omega
  -- The first byte tells how many there are; of as many, the first that differs is the smaller.
  fun_cases String.utf8EncodeChar c <;> fun_cases String.utf8EncodeChar d <;>
    simp (disch := omega) only [List.cons_append, List.nil_append, List.cons_lt_cons_iff,
      UInt8.lt_iff_toNat_lt, ← UInt8.toNat_inj, UInt8.toNat_ofNat', Nat.mod_eq_of_lt] <;> omega

/-- Texts are in the order of their encodings. -/
theorem flatMap_encodeChar_lt {l l' : List Char} (h : l < l') :
    l.flatMap String.utf8EncodeChar < l'.flatMap String.utf8EncodeChar := by
  induction h with
  | @nil c l =>
    have hne : (c :: l).flatMap String.utf8EncodeChar ≠ [] := by
      simp [String.utf8EncodeChar_ne_nil]
    obtain ⟨b, bytes, hbytes⟩ := List.exists_cons_of_ne_nil hne
    rw [hbytes, List.flatMap_nil]
    exact List.Lex.nil
  | cons _ ih =>
    rw [List.flatMap_cons, List.flatMap_cons]
    exact List.append_left_lt ih
  | rel hlt => exact encodeChar_append_lt hlt _ _

/-- Texts and their bytes are in the same order. -/
theorem encode_lt_iff {s t : String} : encode s < encode t ↔ s < t := by
  rw [encode_eq, encode_eq]
  refine ⟨fun h => ?_, flatMap_encodeChar_lt⟩
  rcases Std.lt_trichotomy s.toList t.toList with hlt | heq | hgt
  · exact hlt
  · rw [heq] at h
    exact absurd h (List.lt_irrefl _)
  · exact absurd h (List.lt_asymm (flatMap_encodeChar_lt hgt))

end Deployment.Utf8
