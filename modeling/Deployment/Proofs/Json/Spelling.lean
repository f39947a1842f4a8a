import Deployment.Json.Cursor
import Deployment.Json.Value
import Deployment.Proofs.Text.Utf8

/-! # How documents are spelled

A document can be written in many ways that differ only in blanks. Whatever is read back from the
text that the program writes is read back from any of these.

* **`Json.Spells`** — the bytes spell a document; blanks may stand between its parts.
* **`Json.spells_compact`**, **`Json.spells_pretty`** — the text without blanks and the indented
  text spell their document. -/

namespace Deployment.Json

open Utf8

/-- Bytes that are nothing but blanks. -/
def Blanks (l : List UInt8) : Prop := ∀ b ∈ l, Reader.isBlank b = true

/-- No bytes are blanks. -/
theorem Blanks.nil : Blanks [] := nofun

/-- What stands before an item or a member: blanks, and a comma unless it is the first. -/
def Separates : Bool → List UInt8 → Prop
  | true, l => Blanks l
  | false, l => ∃ before behind, Blanks before ∧ Blanks behind ∧ l = before ++ 0x2C :: behind

mutual

/-- The bytes spell a document. -/
inductive Spells : Json → List UInt8 → Prop where
  | null : Spells .null (encode "null")
  | bool (b : Bool) : Spells (.bool b) (encode (if b then "true" else "false"))
  | number (n : Int) : Spells (.number n) (encode (toString n))
  | text (s : String) : Spells (.text s) (encode (quote s))
  | list {items : List Json} {bytes : List UInt8} (inside : SpellsItems true items bytes) :
      Spells (.list items) (0x5B :: bytes)
  | object {members : List (String × Json)} {bytes : List UInt8}
      (inside : SpellsMembers true members bytes) : Spells (.object members) (0x7B :: bytes)

/-- The bytes spell the items that follow in a list, with the bracket that closes it. -/
inductive SpellsItems : Bool → List Json → List UInt8 → Prop where
  | nil {first : Bool} {blanks : List UInt8} (blank : Blanks blanks) :
      SpellsItems first [] (blanks ++ [0x5D])
  | cons {first : Bool} {before bytes more : List UInt8} {v : Json} {rest : List Json}
      (separates : Separates first before) (value : Spells v bytes)
      (follow : SpellsItems false rest more) :
      SpellsItems first (v :: rest) (before ++ (bytes ++ more))

/-- The bytes spell the members that follow in an object, with the bracket that closes it. -/
inductive SpellsMembers : Bool → List (String × Json) → List UInt8 → Prop where
  | nil {first : Bool} {blanks : List UInt8} (blank : Blanks blanks) :
      SpellsMembers first [] (blanks ++ [0x7D])
  | cons {first : Bool} {before between behind bytes more : List UInt8} {k : String} {v : Json}
      {rest : List (String × Json)} (separates : Separates first before)
      (between_blank : Blanks between) (behind_blank : Blanks behind) (value : Spells v bytes)
      (follow : SpellsMembers false rest more) :
      SpellsMembers first ((k, v) :: rest)
        (before ++ (encode (quote k) ++ (between ++ 0x3A :: (behind ++ (bytes ++ more)))))

end

/-- The comma behind which another item or member stands. -/
def lead (first : Bool) : List UInt8 := if first then [] else [0x2C]

/-- A comma is what leads an item that is not the first. -/
@[simp] theorem encode_comma : encode "," = lead false := rfl

/-- A colon is one byte. -/
@[simp] theorem encode_colon : encode ":" = [0x3A] := rfl

/-! ## The text without blanks -/

/-- Nothing but the comma stands before an item or a member. -/
theorem separates_lead (first : Bool) : Separates first (lead first) := by
  cases first with
  | true => exact .nil
  | false => exact ⟨[], [], .nil, .nil, rfl⟩

mutual

/-- The text without blanks spells its document. -/
theorem spells_compact : ∀ v : Json, Spells v (encode v.compact)
  | .null => .null
  | .bool true => .bool true
  | .bool false => .bool false
  | .number n => .number n
  | .text s => .text s
  | .list [] => .list (.nil .nil)
  | .object [] => .object (.nil .nil)
  | .list (v :: rest) => by
    have h := spells_compactItems true (v :: rest) nofun
    rw [compact, encode_append, encode_append, List.append_assoc]
    exact .list h
  | .object (m :: rest) => by
    have h := spells_compactMembers true (m :: rest) nofun
    rw [compact, encode_append, encode_append, List.append_assoc]
    exact .object h

/-- Compact items spell the list, whether or not one of them is the first. -/
theorem spells_compactItems : ∀ (first : Bool) (items : List Json), items ≠ [] →
    SpellsItems first items (lead first ++ (encode (compactItems items) ++ [0x5D]))
  | _, [], h => absurd rfl h
  | first, [v], _ => .cons (separates_lead first) (spells_compact v) (.nil .nil)
  | first, v :: w :: rest, _ => by
    have h := SpellsItems.cons (separates_lead first) (spells_compact v)
      (spells_compactItems false (w :: rest) nofun)
    simp only [compactItems, encode_append, encode_comma]
    simpa only [List.append_assoc] using h

/-- Compact members spell the object, whether or not one of them is the first. -/
theorem spells_compactMembers : ∀ (first : Bool) (members : List (String × Json)),
    members ≠ [] →
    SpellsMembers first members (lead first ++ (encode (compactMembers members) ++ [0x7D]))
  | _, [], h => absurd rfl h
  | first, [(k, v)], _ => by
    have h := SpellsMembers.cons (k := k) (separates_lead first) .nil .nil (spells_compact v)
      (.nil .nil)
    rw [compactMembers, encode_append, encode_append, encode_colon]
    simpa only [List.append_assoc, List.nil_append, List.cons_append] using h
  | first, (k, v) :: m :: rest, _ => by
    have h := SpellsMembers.cons (k := k) (separates_lead first) .nil .nil (spells_compact v)
      (spells_compactMembers false (m :: rest) nofun)
    simp only [compactMembers, encode_append, encode_colon, encode_comma]
    simpa only [List.append_assoc, List.nil_append, List.cons_append] using h

end

/-! ## The indented text -/

/-- The start of a line is blank. -/
theorem blanks_indent (depth : Nat) : Blanks (encode (indent depth)) := by
  -- Two blanks a level, behind the line break.
  have hspaces : encode (String.ofList (List.replicate (2 * depth) ' ')) =
      List.replicate (2 * depth) 0x20 := by
    rw [encode_ofList]
    induction 2 * depth with
    | zero => rfl
    | succ n ih => rw [List.replicate_succ, List.flatMap_cons, ih]; rfl
  intro b hb
  rw [indent, encode_append, hspaces] at hb
  rcases List.mem_append.1 hb with hb | hb
  · obtain rfl := List.mem_singleton.1 (show b ∈ [0x0A] from hb)
    rfl
  · obtain rfl := List.eq_of_mem_replicate hb
    rfl

/-- What stands before an item or a member on a line of its own. -/
theorem separates_indent (first : Bool) (depth : Nat) :
    Separates first (lead first ++ encode (indent depth)) := by
  cases first with
  | true => exact blanks_indent depth
  | false => exact ⟨[], _, .nil, blanks_indent depth, rfl⟩

/-- A space is a blank. -/
theorem blanks_space : Blanks [0x20] := by
  intro b hb
  obtain rfl := List.mem_singleton.1 hb
  rfl

/-- A colon with a space is a colon with a blank behind it. -/
@[simp] theorem encode_colon_space : encode ": " = 0x3A :: [0x20] := rfl

mutual

/-- The indented text spells its document at every depth. -/
theorem spells_prettyAt : ∀ (depth : Nat) (v : Json), Spells v (encode (prettyAt depth v))
  | _, .null => .null
  | _, .bool true => .bool true
  | _, .bool false => .bool false
  | _, .number n => .number n
  | _, .text s => .text s
  | _, .list [] => .list (.nil .nil)
  | _, .object [] => .object (.nil .nil)
  | depth, .list (v :: rest) => by
    have h := spells_prettyItems (depth + 1) depth true (v :: rest) nofun
    rw [prettyAt, encode_append, encode_append, encode_append, List.append_assoc,
      List.append_assoc]
    exact .list h
  | depth, .object (m :: rest) => by
    have h := spells_prettyMembers (depth + 1) depth true (m :: rest) nofun
    rw [prettyAt, encode_append, encode_append, encode_append, List.append_assoc,
      List.append_assoc]
    exact .object h

/-- Items on lines of their own spell the list, however far they are indented. -/
theorem spells_prettyItems : ∀ (depth outside : Nat) (first : Bool) (items : List Json),
    items ≠ [] → SpellsItems first items
      (lead first ++ (encode (prettyItems depth items) ++ (encode (indent outside) ++ [0x5D])))
  | _, _, _, [], h => absurd rfl h
  | depth, outside, first, [v], _ => by
    have h := SpellsItems.cons (separates_indent first depth) (spells_prettyAt depth v)
      (.nil (blanks_indent outside))
    rw [prettyItems, encode_append]
    simpa only [List.append_assoc] using h
  | depth, outside, first, v :: w :: rest, _ => by
    have h := SpellsItems.cons (separates_indent first depth) (spells_prettyAt depth v)
      (spells_prettyItems depth outside false (w :: rest) nofun)
    simp only [prettyItems, encode_append, encode_comma]
    simpa only [List.append_assoc] using h

/-- Members on lines of their own spell the object, however far they are indented. -/
theorem spells_prettyMembers : ∀ (depth outside : Nat) (first : Bool)
    (members : List (String × Json)), members ≠ [] → SpellsMembers first members
      (lead first ++ (encode (prettyMembers depth members) ++
        (encode (indent outside) ++ [0x7D])))
  | _, _, _, [], h => absurd rfl h
  | depth, outside, first, [(k, v)], _ => by
    have h := SpellsMembers.cons (k := k) (separates_indent first depth) .nil blanks_space
      (spells_prettyAt depth v) (.nil (blanks_indent outside))
    rw [prettyMembers, encode_append, encode_append, encode_append, encode_colon_space]
    simpa only [List.append_assoc, List.nil_append, List.cons_append] using h
  | depth, outside, first, (k, v) :: m :: rest, _ => by
    have h := SpellsMembers.cons (k := k) (separates_indent first depth) .nil blanks_space
      (spells_prettyAt depth v) (spells_prettyMembers depth outside false (m :: rest) nofun)
    simp only [prettyMembers, encode_append, encode_colon_space, encode_comma]
    simpa only [List.append_assoc, List.nil_append, List.cons_append] using h

end

/-- The indented text spells its document. -/
theorem spells_pretty (v : Json) : Spells v (encode v.pretty) := spells_prettyAt 0 v

end Deployment.Json
