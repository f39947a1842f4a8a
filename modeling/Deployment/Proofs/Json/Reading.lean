import Deployment.Json.Form
import Deployment.Proofs.Json.Number
import Deployment.Proofs.Json.Quoted

/-! # Readers find what is spelled

A reader finds a value if it reads the value from every spelling of its document, whatever blanks
stand before it and whatever may stand behind it.

* **`Reader.finds_judged`**, **`.finds_natural`**, **`.finds_choice`** — plain values are found.
* **`Reader.gives_nextMember`** and the others — the steps through an object. -/

namespace Deployment.Json

open Utf8

namespace Reader

variable {α β σ : Type} {input middle rest : List UInt8} {a : α} {b : UInt8}

/-- A value starts with the first byte behind blanks, which is not yet taken. -/
theorem gives_startOfValue {blanks : List UInt8} (h : Blanks blanks) (hb : isBlank b = false) :
    Gives startOfValue (blanks ++ b :: rest) b (b :: rest) :=
  .bind (gives_peekToken h hb) (.pure b _)

/-! ## Plain values -/

/-- A quoted text starts with its quote. -/
theorem quote_append (s : String) (rest : List UInt8) :
    encode (quote s) ++ rest = 0x22 :: (encode (escape s.toList) ++ 0x22 :: rest) := by
  rw [encode_quote, List.cons_append, List.append_assoc]
  rfl

/-- A quoted text is read behind its quote. -/
theorem gives_quotedText (s : String) (rest : List UInt8) :
    Gives quotedText (encode (escape s.toList) ++ 0x22 :: rest) s rest :=
  quotedText_quote s rest

/-- A quote is no blank. -/
@[simp] theorem isBlank_quote : isBlank 0x22 = false := rfl

/-- A text that passes its judgement is found. -/
theorem finds_judged {expected : String} {judge : String → Except Mismatch α} {s : String}
    (h : judge s = .ok a) : (judged expected judge).Finds (.text s) a := by
  intro blanks bytes rest hb hs _
  cases hs
  rw [quote_append]
  refine .bind (gives_startOfValue hb isBlank_quote) ?_
  rw [if_pos rfl]
  exact .located (.bind gives_skip (.bind (gives_quotedText s rest) (gives_ofExcept h)))

/-- A text finds itself. -/
theorem finds_text (s : String) : text.Finds (.text s) s := finds_judged rfl

/-- A value starts with neither a blank nor a closing bracket, and only null with an `n`. -/
theorem starts_value {v : Json} {bytes : List UInt8} (h : Spells v bytes) :
    ∃ b more, bytes = b :: more ∧ isBlank b = false ∧ b ≠ 0x5D ∧ (v ≠ .null → b ≠ 0x6E) := by
  cases h with
  | null => exact ⟨_, _, rfl, rfl, by decide, fun h => absurd rfl h⟩
  | bool b => cases b <;> exact ⟨_, _, rfl, rfl, by decide, fun _ => by decide⟩
  | number n =>
    obtain ⟨b, more, h, rfl | hb⟩ := starts_number n
    · exact ⟨_, more, h, rfl, by decide, fun _ => by decide⟩
    · refine ⟨b, more, h, isBlank_of_isDigit hb, ?_, fun _ => ?_⟩ <;>
      · rintro rfl
        exact absurd hb (by decide)
  | text s => exact ⟨0x22, _, encode_quote s, rfl, by decide, fun _ => by decide⟩
  | list => exact ⟨0x5B, _, rfl, rfl, by decide, fun _ => by decide⟩
  | object => exact ⟨0x7B, _, rfl, rfl, by decide, fun _ => by decide⟩

/-- What spells a value other than null starts neither with a blank nor as null does. -/
theorem starts {v : Json} {bytes : List UInt8} (h : Spells v bytes) (hv : v ≠ .null) :
    ∃ b more, bytes = b :: more ∧ isBlank b = false ∧ b ≠ 0x6E := by
  obtain ⟨b, more, hbytes, hblank, -, hn⟩ := starts_value h
  exact ⟨b, more, hbytes, hblank, hn hv⟩

/-- A natural number is found. -/
theorem finds_natural {expected : String} {max n : Nat} (hmax : max ≤ maxWord) (hn : n ≤ max) :
    (natural expected max).Finds (.number n) n := by
  intro blanks bytes rest hb hs he
  cases hs
  obtain ⟨b, more, hbytes, hdigit⟩ := starts_natural n
  have hnumber := gives_number (Nat.le_trans hn hmax) he
  rw [hbytes, List.cons_append] at hnumber ⊢
  refine .bind (gives_startOfValue hb (isBlank_of_isDigit hdigit)) ?_
  rw [if_pos (by rw [hdigit, Bool.or_true])]
  refine .located (.bind hnumber (gives_ofExcept ?_))
  simp only [hn, if_true]

/-- A value that may be null is found unless it is null. -/
theorem Finds.optional {r : Reader α} {v : Json} (h : r.Finds v a) (hv : v ≠ .null) :
    (Reader.optional r).Finds v (some a) := by
  intro blanks bytes rest hb hs he
  obtain ⟨b, more, rfl, hblank, hn⟩ := starts hs hv
  refine .bind (gives_peekToken hb hblank) ?_
  rw [if_neg (fun h => hn (Option.some.inj h))]
  exact (h [] (b :: more) rest .nil hs he).map some

/-- A name that is known is found. -/
theorem finds_variant {names : List String} {name : String} (h : name ∈ names) :
    (variant names).Finds (.text name) name :=
  finds_judged (if_pos (List.contains_iff_mem.2 h))

/-- A name that is known is found alone. -/
theorem finds_choice {names : List String} {name : String} (h : name ∈ names) (levels : Nat) :
    (choice names levels).Finds (.text name) name := by
  intro blanks bytes rest hb hs he
  have hname := finds_variant h [] bytes rest .nil hs he
  cases hs
  rw [List.nil_append, quote_append] at hname
  rw [quote_append]
  refine .bind (gives_peekToken hb isBlank_quote) ?_
  simp only [if_true]
  exact .bind hname (.pure name rest)

/-! ## Objects -/

/-- A colon is read behind blanks. -/
theorem gives_colon {blanks : List UInt8} (h : Blanks blanks) (rest : List UInt8) :
    Gives colon (blanks ++ 0x3A :: rest) () rest :=
  .bind (gives_peekToken h rfl) gives_skip

/-- A quoted key is read. -/
theorem gives_key (k : String) (rest : List UInt8) :
    Gives key (encode (quote k) ++ rest) k rest := by
  rw [quote_append]
  exact .bind gives_skip (gives_quotedText k rest)

/-- The end of an object is seen. -/
theorem gives_noMember {blanks : List UInt8} (h : Blanks blanks) (first : Bool) :
    Gives (nextMember first) (blanks ++ 0x7D :: rest) false (0x7D :: rest) :=
  .bind (gives_peekToken h rfl) (.pure false _)

/-- Behind a comma, which the first member has not, the key of the next member is seen. -/
theorem gives_nextMember {first : Bool} {before : List UInt8} (h : Separates first before)
    (k : String) (rest : List UInt8) :
    Gives (nextMember first) (before ++ (encode (quote k) ++ rest)) true
      (encode (quote k) ++ rest) := by
  rw [quote_append]
  cases first with
  | true => exact .bind (gives_peekToken h isBlank_quote) (.pure true _)
  | false =>
    obtain ⟨front, behind, hfront, hbehind, rfl⟩ := h
    rw [List.append_assoc, List.cons_append]
    exact .bind (gives_peekToken hfront rfl)
      (.bind gives_skip (.bind (gives_peekToken hbehind isBlank_quote) (.pure true _)))

/-- A closing brace ends an object. -/
theorem gives_endOfObject : Gives endOfObject (0x7D :: rest) () rest :=
  .bind (gives_peekToken .nil rfl) gives_skip

end Reader

end Deployment.Json
