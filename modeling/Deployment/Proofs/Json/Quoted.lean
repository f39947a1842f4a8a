import Deployment.Json.Quoted
import Deployment.Json.Value
import Deployment.Proofs.Text.Utf8

/-! # Strings are read back

* **`Json.scan_escape`** — the escaped characters of a string are scanned to its bytes.
* **`Json.quotedText_quote`** — a string in quotes is read back. -/

namespace Deployment.Json

open Utf8

/-- The escaped characters of a string, one after the other. -/
theorem encode_escape (l : List Char) :
    encode (escape l) = l.flatMap fun c => encode (escapeChar c) := by
  have hfold : ∀ out, encode (l.foldl (fun out c => out ++ escapeChar c) out) =
      encode out ++ l.flatMap fun c => encode (escapeChar c) := by
    induction l with
    | nil => intro out; simp
    | cons c l ih =>
      intro out
      rw [List.foldl_cons, ih, encode_append, List.flatMap_cons, List.append_assoc]
  exact hfold ""

/-- A quoted text is its escaped characters between quotes. -/
theorem encode_quote (s : String) :
    encode (quote s) = 0x22 :: (encode (escape s.toList) ++ [0x22]) := by
  rw [quote, encode_append, encode_append]
  rfl

section
variable (taken rest : List UInt8) (p : Position)

/-- Plain bytes stand for themselves. -/
theorem scan_plain {bytes : List UInt8}
    (h : ∀ b ∈ bytes, 0x20 ≤ b ∧ b ≠ 0x22 ∧ b ≠ 0x5C) :
    ∃ p', scanQuoted true .plain taken (bytes ++ rest) p =
      scanQuoted true .plain (bytes.reverse ++ taken) rest p' := by
  induction bytes generalizing taken p with
  | nil => exact ⟨p, rfl⟩
  | cons b bytes ih =>
    obtain ⟨hlow, hquote, hslash⟩ := h b (List.mem_cons_self ..)
    -- None of the three bytes that the scanner treats apart.
    have hnot : ¬ b < 0x20 := UInt8.not_lt.2 hlow
    obtain ⟨p', hp'⟩ := ih (b :: taken) (p.advance b) fun b' hb' =>
      h b' (List.mem_cons_of_mem b hb')
    refine ⟨p', ?_⟩
    rw [List.cons_append, scanQuoted]
    simp only [hquote, hslash, hnot, if_false, if_true, hp', List.reverse_cons, List.append_assoc,
      List.singleton_append]

/-- A character by its number. -/
theorem scan_unicode {d d' : UInt8} {n : Nat} (h : hexNumber [d', d, 0x30, 0x30] = some n)
    (hn : n < 0xD800) :
    ∃ p', scanQuoted true .plain taken (0x5C :: 0x75 :: 0x30 :: 0x30 :: d :: d' :: rest) p =
      scanQuoted true .plain ((codePoint n).reverse ++ taken) rest p' := by
  have hafter : afterDigits true none n = .ok (.plain, (codePoint n).reverse) := by
    have h₁ : ¬ (0xDC00 ≤ n) := by omega
    have h₂ : ¬ (0xD800 ≤ n) := by omega
    simp [afterDigits, h₁, h₂]
  have hquote : ¬ (0x5C : UInt8) = 0x22 := by decide
  simp only [scanQuoted, hquote, if_false, if_true, List.length_cons, List.length_nil,
    Nat.reduceAdd, Nat.reduceLT, h, hafter]
  exact ⟨_, rfl⟩

/-- A character by a letter. -/
theorem scan_letter {b b' : UInt8} (hb : b ≠ 0x75) (h : shortEscape b = some b') :
    ∃ p', scanQuoted true .plain taken (0x5C :: b :: rest) p =
      scanQuoted true .plain (b' :: taken) rest p' := by
  have hquote : ¬ (0x5C : UInt8) = 0x22 := by decide
  simp only [scanQuoted, hquote, if_false, if_true, hb, h]
  exact ⟨_, rfl⟩

end

/-- The byte of a digit has its value. -/
theorem hexValue_hexDigit {n : Nat} (h : n < 16) :
    String.utf8EncodeChar (hexDigit n) = [UInt8.ofNat (hexDigit n).toNat] ∧
      hexValue (UInt8.ofNat (hexDigit n).toNat) = some n := by
  have hall : ∀ n : Fin 16, (hexDigit n).toNat < 128 ∧
      hexValue (UInt8.ofNat (hexDigit n).toNat) = some n.val := by decide
  obtain ⟨hascii, hvalue⟩ := hall ⟨n, h⟩
  exact ⟨encodeChar_ascii hascii, hvalue⟩

/-- How a character stands in a string: by a letter, by its number, or for itself. -/
inductive Escaped (c : Char) : Prop where
  | letter (b b' : UInt8) (bytes : encode (escapeChar c) = [0x5C, b]) (short : b ≠ 0x75)
      (means : shortEscape b = some b') (itself : String.utf8EncodeChar c = [b'])
  | number (d d' : UInt8) (bytes : encode (escapeChar c) = [0x5C, 0x75, 0x30, 0x30, d, d'])
      (means : hexNumber [d', d, 0x30, 0x30] = some c.toNat) (control : c.toNat < 32)
  | plain (bytes : encode (escapeChar c) = String.utf8EncodeChar c)
      (itself : ∀ b ∈ String.utf8EncodeChar c, 0x20 ≤ b ∧ b ≠ 0x22 ∧ b ≠ 0x5C)

/-- A control character that is written with its number is read back. -/
theorem escaped_control {c : Char} (h : c.toNat < 32)
    (he : escapeChar c =
      "\\u00" ++ String.ofList [hexDigit (c.toNat / 16), hexDigit (c.toNat % 16)]) : Escaped c := by
  obtain ⟨hd, hv⟩ := hexValue_hexDigit (show c.toNat / 16 < 16 by omega)
  obtain ⟨hd', hv'⟩ := hexValue_hexDigit (show c.toNat % 16 < 16 by omega)
  refine .number (UInt8.ofNat (hexDigit (c.toNat / 16)).toNat)
    (UInt8.ofNat (hexDigit (c.toNat % 16)).toNat) ?_ ?_ h
  · have hhead : encode "\\u00" = [0x5C, 0x75, 0x30, 0x30] := rfl
    have hdigits : encode (String.ofList [hexDigit (c.toNat / 16), hexDigit (c.toNat % 16)]) =
        [UInt8.ofNat (hexDigit (c.toNat / 16)).toNat,
          UInt8.ofNat (hexDigit (c.toNat % 16)).toNat] := by
      rw [encode_ofList, List.flatMap_cons, List.flatMap_cons, hd, hd']
      rfl
    rw [he, encode_append, hhead, hdigits]
    rfl
  · have hzero : hexValue 0x30 = some 0 := rfl
    simp only [hexNumber, hv, hv', hzero, Option.bind_eq_bind, Option.bind_some, Option.pure_def]
    congr 1
    omega

/-- A character that stands for itself is read back. -/
theorem escaped_plain {c : Char} (h : ¬ c.toNat < 32) (hq : c ≠ '"') (hs : c ≠ '\\')
    (he : escapeChar c = String.singleton c) : Escaped c := by
  refine .plain (by rw [he, ← encodeChar, encodeChar_eq]) fun b hb => ?_
  -- Below 128 a character is its own byte; above, each of its bytes is at least 128.
  by_cases hascii : c.toNat < 128
  · rw [encodeChar_ascii hascii, List.mem_singleton] at hb
    subst hb
    have hnat : (UInt8.ofNat c.toNat).toNat = c.toNat := by
      rw [UInt8.toNat_ofNat', Nat.mod_eq_of_lt (by omega)]
    have hne : ∀ d : Char, c ≠ d → d.toNat < 128 → UInt8.ofNat c.toNat ≠ UInt8.ofNat d.toNat := by
      intro d hcd hd heq
      have := congrArg UInt8.toNat heq
      rw [hnat, UInt8.toNat_ofNat', Nat.mod_eq_of_lt (by omega)] at this
      exact hcd (Char.ext (UInt32.toNat_inj.1 this))
    refine ⟨?_, hne '"' hq (by decide), hne '\\' hs (by decide)⟩
    rw [UInt8.le_iff_toNat_le, hnat]
    exact Nat.le_of_not_lt h
  · have hhigh := high_of_mem (Nat.le_of_not_lt hascii) hb
    refine ⟨UInt8.le_trans (by decide) hhigh, ?_, ?_⟩
    · rintro rfl
      revert hhigh
      decide
    · rintro rfl
      revert hhigh
      decide

/-- Every character is read back as it is escaped. -/
theorem escaped (c : Char) : Escaped c := by
  by_cases hq : c = '"'
  · subst hq; exact .letter 0x22 0x22 rfl (by decide) rfl rfl
  by_cases hs : c = '\\'
  · subst hs; exact .letter 0x5C 0x5C rfl (by decide) rfl rfl
  by_cases hn : c = '\n'
  · subst hn; exact .letter 0x6E 0x0A rfl (by decide) rfl rfl
  by_cases hr : c = '\r'
  · subst hr; exact .letter 0x72 0x0D rfl (by decide) rfl rfl
  by_cases ht : c = '\t'
  · subst ht; exact .letter 0x74 0x09 rfl (by decide) rfl rfl
  by_cases hb : c = '\x08'
  · subst hb; exact .letter 0x62 0x08 rfl (by decide) rfl rfl
  by_cases hf : c = '\x0c'
  · subst hf; exact .letter 0x66 0x0C rfl (by decide) rfl rfl
  -- The letters are done; what is left is another control character, or itself.
  by_cases hc : c.toNat < 32
  · refine escaped_control hc ?_
    simp only [escapeChar, hq, hs, hn, hr, ht, hb, hf, hc, if_false, if_true]
  · refine escaped_plain hc hq hs ?_
    simp only [escapeChar, hq, hs, hn, hr, ht, hb, hf, hc, if_false]

/-- A character is scanned to its bytes, however it stands in the string. -/
theorem scan_escapeChar (c : Char) (taken rest : List UInt8) (p : Position) :
    ∃ p', scanQuoted true .plain taken (encode (escapeChar c) ++ rest) p =
      scanQuoted true .plain ((String.utf8EncodeChar c).reverse ++ taken) rest p' := by
  cases escaped c with
  | letter b b' bytes short means itself =>
    rw [bytes, itself]
    exact scan_letter taken rest p short means
  | number d d' bytes means control =>
    have hpoint : codePoint c.toNat = String.utf8EncodeChar c := by
      rw [codePoint, encodeChar_eq, Char.ofNat_toNat]
    rw [bytes, ← hpoint]
    exact scan_unicode taken rest p means (by omega)
  | plain bytes itself =>
    rw [bytes]
    exact scan_plain taken rest p itself

/-- The escaped characters of a string are scanned to its bytes, up to the quote behind them. -/
theorem scan_escape (l : List Char) (taken rest : List UInt8) (p : Position) :
    ∃ p', scanQuoted true .plain taken (encode (escape l) ++ 0x22 :: rest) p =
      .ok ((l.flatMap String.utf8EncodeChar).reverse ++ taken) ⟨rest, p'⟩ := by
  rw [encode_escape]
  induction l generalizing taken p with
  | nil => exact ⟨_, rfl⟩
  | cons c l ih =>
    rw [List.flatMap_cons, List.append_assoc]
    obtain ⟨p₁, h₁⟩ := scan_escapeChar c taken
      ((l.flatMap fun c => encode (escapeChar c)) ++ 0x22 :: rest) p
    obtain ⟨p₂, h₂⟩ := ih ((String.utf8EncodeChar c).reverse ++ taken) p₁
    refine ⟨p₂, ?_⟩
    rw [h₁, h₂, List.flatMap_cons, List.reverse_append, List.append_assoc]

/-- A string in quotes is read back behind its opening quote. -/
theorem quotedText_quote (s : String) (rest : List UInt8) (p : Position) :
    ∃ p', Reader.quotedText ⟨encode (escape s.toList) ++ 0x22 :: rest, p⟩ = .ok s ⟨rest, p'⟩ := by
  obtain ⟨p', h⟩ := scan_escape s.toList [] rest p
  refine ⟨p', ?_⟩
  have hbytes : ((s.toList.flatMap String.utf8EncodeChar).reverse ++ []).reverse = encode s := by
    rw [List.append_nil, List.reverse_reverse, encode_eq]
  simp only [Reader.quotedText, h, hbytes, decode?_encode]

end Deployment.Json
