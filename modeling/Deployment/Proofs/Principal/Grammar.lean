import Deployment.Principal
import Mathlib.Data.List.Basic

/-! # The grammar of principals

A principal is a primary name, perhaps an instance behind a slash, and perhaps a realm behind an at
sign, in this order. The grammar says how parts are written, and which texts can be parts at all.

* **`Text.whiteSpace`** — the blank characters one by one.
* **`Principal.IsPart`** — the texts that can be parts.
* **`Principal.Parts.written`**, **`Principal.Parts.Spell`** — how parts are written.
* **`Principal.partsOf_eq_some_iff`** — the parts that are read are those that were written.
* **`principals_follow_grammar`** — which principals are accepted, with their short names. -/

namespace Deployment

/-! ## Blank characters -/

namespace Text

/-- The characters of the Unicode property `White_Space`. -/
def whiteSpace : List Char :=
  ['\t', '\n', '\x0b', '\x0c', '\r', ' ', '\u0085', '\u00a0', '\u1680', '\u2000', '\u2001',
   '\u2002', '\u2003', '\u2004', '\u2005', '\u2006', '\u2007', '\u2008', '\u2009', '\u200a',
   '\u2028', '\u2029', '\u202f', '\u205f', '\u3000']

/-- The ranges of blank characters hold these and no others. -/
theorem isBlank_iff {c : Char} : isBlank c ↔ c ∈ whiteSpace := by
  rw [← List.mem_map_of_injective fun _ _ => Char.toNat_inj.1]
  simp only [isBlank, blankRanges, List.any_cons, List.any_nil, Bool.or_false, Bool.or_eq_true,
    Bool.and_eq_true, decide_eq_true_eq, whiteSpace, List.map_cons, List.map_nil, Char.reduceToNat,
    List.mem_cons, List.not_mem_nil, or_false]
  omega

end Text

namespace Principal

/-! ## The grammar -/

/-- A part holds a character, and neither a separator nor white space. -/
structure IsPart (s : List Char) : Prop where
  some : s ≠ []
  clean : ∀ c ∈ s, c ≠ '/' ∧ c ≠ '@' ∧ c ∉ Text.whiteSpace

/-- A part that may be left out, with the separator in front of it. -/
def behind (separator : Char) : Option (List Char) → List Char
  | none => []
  | some part => separator :: part

/-- A part that there is comes behind its separator. -/
@[simp] theorem behind_some (separator : Char) (part : List Char) :
    behind separator (some part) = separator :: part := rfl

/-- The parts as they are written. -/
def Parts.written (parts : Parts) : List Char :=
  parts.primary ++ behind '/' parts.instance? ++ behind '@' parts.realm?

/-- Every part is one. -/
structure Parts.WellFormed (parts : Parts) : Prop where
  primary : IsPart parts.primary
  secondary : ∀ part, parts.instance? = some part → IsPart part
  realm : ∀ part, parts.realm? = some part → IsPart part

/-- The parts are those of a principal. -/
structure Parts.Spell (parts : Parts) (p : Principal) : Prop where
  wellFormed : parts.WellFormed
  name : p.name = String.ofList parts.written

/-! ## Reading one part -/

/-- A part has neither separators nor blanks in it. -/
theorem isPartChar_iff {c : Char} :
    isPartChar c ↔ c ≠ '/' ∧ c ≠ '@' ∧ c ∉ Text.whiteSpace := by
  rw [← Text.isBlank_iff]
  simp only [isPartChar, Bool.and_eq_true, decide_eq_true_eq, Bool.not_eq_true', and_assoc,
    Bool.not_eq_true]

/-- A part has characters, and all of them may stand in it. -/
theorem isPart_iff {s : List Char} : IsPart s ↔ s ≠ [] ∧ ∀ c ∈ s, isPartChar c := by
  simp only [isPartChar_iff]
  exact ⟨fun h => ⟨h.some, h.clean⟩, fun h => ⟨h.1, h.2⟩⟩

/-- What stands behind a part begins with a separator, if there is anything. -/
theorem not_isPartChar_head_behind {separator : Char} (h : ¬ isPartChar separator)
    (part? : Option (List Char)) : ∀ c ∈ (behind separator part?).head?, ¬ isPartChar c := by
  cases part? with
  | none => nofun
  | some part =>
    intro c hc
    obtain rfl : separator = c := Option.some.inj hc
    exact h

/-- A part is read up to the separator behind it. -/
theorem takeWhile_part {part rest : List Char} (hp : IsPart part)
    (hr : ∀ c ∈ rest.head?, ¬ isPartChar c) : (part ++ rest).takeWhile isPartChar = part := by
  rw [List.takeWhile_append_of_pos (isPart_iff.1 hp).2]
  cases rest with
  | nil => exact List.append_nil part
  | cons c rest => rw [List.takeWhile_cons_of_neg (hr c rfl), List.append_nil]

/-- What is left behind a part begins with the separator. -/
theorem dropWhile_part {part rest : List Char} (hp : IsPart part)
    (hr : ∀ c ∈ rest.head?, ¬ isPartChar c) : (part ++ rest).dropWhile isPartChar = rest := by
  rw [List.dropWhile_append_of_pos (isPart_iff.1 hp).2]
  cases rest with
  | nil => rfl
  | cons c rest => rw [List.dropWhile_cons_of_neg (hr c rfl)]

/-- What is read of a text is a part if it is anything. -/
theorem isPart_takeWhile {s : List Char} (h : ¬ (s.takeWhile isPartChar).isEmpty) :
    IsPart (s.takeWhile isPartChar) :=
  isPart_iff.2 ⟨fun hnil => h (by rw [hnil]; rfl), List.all_eq_true.1 List.all_takeWhile⟩

/-- What may be a realm is the whole of a part. -/
theorem realmOnly_eq_some_iff {s part : List Char} :
    realmOnly s = some part ↔ IsPart s ∧ s = part := by
  rw [realmOnly, isPart_iff, Option.ite_none_right_eq_some, Option.some.injEq]
  simp only [Bool.and_eq_true, Bool.not_eq_true', List.isEmpty_eq_false_iff, List.all_eq_true]

/-! ## Reading all parts -/

/-- The parts of a text are read back. -/
theorem partsOf_written {parts : Parts} (h : parts.WellFormed) :
    partsOf parts.written = some parts := by
  obtain ⟨primary, instance?, realm?⟩ := parts
  obtain ⟨hprimary, hinstance, hrealm⟩ := h
  have hslash : ¬ isPartChar '/' := by decide
  have hat : ¬ isPartChar '@' := by decide
  -- No part has one of the two separators in it, so the first one ends the primary.
  have hrest : ∀ c ∈ (behind '/' instance? ++ behind '@' realm?).head?, ¬ isPartChar c := by
    cases instance? with
    | none => exact not_isPartChar_head_behind hat realm?
    | some part =>
      exact not_isPartChar_head_behind hslash (some (part ++ behind '@' realm?))
  have hsome : ∀ {part}, IsPart part → part.isEmpty = false := fun hp =>
    List.isEmpty_eq_false_iff.2 hp.some
  simp only [partsOf, Parts.written, List.append_assoc, takeWhile_part hprimary hrest,
    dropWhile_part hprimary hrest, hsome hprimary, Bool.false_eq_true, if_false]
  cases instance? with
  | none =>
    cases realm? with
    | none => rfl
    | some realm =>
      have hread : realmOnly realm = some realm := realmOnly_eq_some_iff.2 ⟨hrealm realm rfl, rfl⟩
      simp only [behind, List.nil_append, hread, Option.map_some]
  | some part =>
    have hpart := hinstance part rfl
    have hstop := not_isPartChar_head_behind hat realm?
    simp only [behind_some, List.cons_append, takeWhile_part hpart hstop,
      dropWhile_part hpart hstop, hsome hpart, Bool.false_eq_true, if_false]
    cases realm? with
    | none => rfl
    | some realm =>
      have hread : realmOnly realm = some realm := realmOnly_eq_some_iff.2 ⟨hrealm realm rfl, rfl⟩
      simp only [behind, hread, Option.map_some]

/-- What is read from the end of a principal is its realm. -/
theorem realm_of_map {realm : List Char} {make : List Char → Parts} {parts : Parts}
    (h : (realmOnly realm).map make = some parts) : IsPart realm ∧ parts = make realm := by
  obtain ⟨part, hread, rfl⟩ := Option.map_eq_some_iff.1 h
  obtain ⟨hpart, rfl⟩ := realmOnly_eq_some_iff.1 hread
  exact ⟨hpart, rfl⟩

/-- What is read of a text is written so. -/
theorem written_of_partsOf {s : List Char} {parts : Parts} (h : partsOf s = some parts) :
    parts.WellFormed ∧ parts.written = s := by
  have hs : s.takeWhile isPartChar ++ s.dropWhile isPartChar = s := List.takeWhile_append_dropWhile
  simp only [partsOf] at h
  split at h
  · cases h
  next hprimary =>
    have hprimary := isPart_takeWhile hprimary
    generalize s.takeWhile isPartChar = primary at h hs hprimary
    split at h
    -- The three ways on: the text ends, a realm follows, or an instance does.
    next hrest =>
      obtain rfl := Option.some.inj h
      refine ⟨⟨hprimary, nofun, nofun⟩, ?_⟩
      simpa [Parts.written, behind, hrest] using hs
    next realm hrest =>
      obtain ⟨hrealm, rfl⟩ := realm_of_map h
      refine ⟨⟨hprimary, nofun, fun _ hpart => Option.some.inj hpart ▸ hrealm⟩, ?_⟩
      simpa [Parts.written, behind, hrest] using hs
    next rest hrest =>
      have hr : rest.takeWhile isPartChar ++ rest.dropWhile isPartChar = rest :=
        List.takeWhile_append_dropWhile
      split at h
      · cases h
      next hinstance =>
        have hinstance := isPart_takeWhile hinstance
        generalize rest.takeWhile isPartChar = part at h hr hinstance
        split at h
        next hend =>
          obtain rfl := Option.some.inj h
          refine ⟨⟨hprimary, fun _ hpart => Option.some.inj hpart ▸ hinstance, nofun⟩, ?_⟩
          rw [hend] at hr
          simpa [Parts.written, behind, hrest, ← hr] using hs
        next realm hend =>
          obtain ⟨hrealm, rfl⟩ := realm_of_map h
          refine ⟨⟨hprimary, fun _ hpart => Option.some.inj hpart ▸ hinstance,
            fun _ hpart => Option.some.inj hpart ▸ hrealm⟩, ?_⟩
          rw [hend] at hr
          simpa [Parts.written, behind, hrest, ← hr] using hs
        next => cases h
    next => cases h

/-- The parts that are read are those that were written. -/
theorem partsOf_eq_some_iff {s : List Char} {parts : Parts} :
    partsOf s = some parts ↔ parts.WellFormed ∧ parts.written = s := by
  constructor
  · exact written_of_partsOf
  · rintro ⟨h, rfl⟩
    exact partsOf_written h

/-- The parts spell a principal exactly if they are found in it. -/
theorem spell_iff {p : Principal} {parts : Parts} : parts.Spell p ↔ p.parts? = some parts := by
  rw [parts?, partsOf_eq_some_iff]
  constructor
  · exact fun h => ⟨h.wellFormed, by rw [h.name, String.toList_ofList]⟩
  · rintro ⟨h, hwritten⟩
    exact ⟨h, by rw [hwritten, String.ofList_toList]⟩

/-! ## The short name -/

/-- The name up to the first separator is the primary one. -/
theorem shortName_of_spell {p : Principal} {parts : Parts} (h : parts.Spell p) :
    p.shortName = String.ofList parts.primary := by
  obtain ⟨hparts, hname⟩ := h
  rw [shortName, hname, String.toList_ofList, Parts.written, List.append_assoc,
    List.takeWhile_append_of_pos fun c hc => ?_]
  · -- What is behind the primary name is nothing, or begins with a separator.
    obtain ⟨primary, instance?, realm?⟩ := parts
    cases instance? <;> cases realm? <;> simp [behind]
  · obtain ⟨hslash, hat, -⟩ := hparts.primary.clean c hc
    simp [hslash, hat]

end Principal

/-- A principal is accepted exactly if it is written from a primary name, perhaps an instance and
perhaps a realm. There is one way to read it so, and its short name is the primary name. -/
theorem principals_follow_grammar (p : Principal) :
    (p.isValid ↔ ∃ parts : Principal.Parts, parts.Spell p) ∧
      ∀ parts : Principal.Parts, parts.Spell p →
        (∀ others : Principal.Parts, others.Spell p → others = parts) ∧
          p.shortName = String.ofList parts.primary := by
  refine ⟨?_, fun parts h => ⟨fun others h' => ?_, Principal.shortName_of_spell h⟩⟩
  · simp only [Principal.spell_iff]
    exact Option.isSome_iff_exists
  · have hsame := (Principal.spell_iff.1 h').symm.trans (Principal.spell_iff.1 h)
    exact Option.some.inj hsame

end Deployment
