import Deployment.Proofs.Json.Reading
import Mathlib.Data.List.Forall2

/-! # Lists and objects are found

A reader of items that finds every item finds the list of them, and a reader of values finds an
object in the same way, member by member.

* **`Reader.gives_items`**, **`Reader.gives_members`** — the inside of a list and of an object.
* **`Reader.Finds.listOf`**, **`Reader.Finds.tableOf`** — whole lists and objects. -/

namespace Deployment.Json

open Utf8

namespace Reader

variable {α : Type} {read : Reader α} {first : Bool} {bytes rest : List UInt8}

/-! ## Lists -/

/-- A number ends before a closing bracket. -/
theorem Ends.bracket (rest : List UInt8) : Ends (0x5D :: rest) := by
  rintro b ⟨⟩
  exact .inr (.inr (.inl rfl))

/-- Behind a value the next item or the end of the list may stand. -/
theorem ends_items {vs : List Json} {more : List UInt8} (h : SpellsItems false vs more)
    (rest : List UInt8) : Ends (more ++ rest) := by
  cases h with
  | nil blank =>
    rw [List.append_assoc]
    exact .blanks blank (.bracket rest)
  | cons separates =>
    rw [List.append_assoc]
    exact .separated separates _

/-- The end of a list is seen. -/
theorem gives_noItem {blanks : List UInt8} (h : Blanks blanks) (first : Bool) :
    Gives (nextItem first) (blanks ++ 0x5D :: rest) false (0x5D :: rest) :=
  .bind (gives_peekToken h rfl) (.pure false _)

/-- Behind a comma, which the first item has not, the next item is seen. -/
theorem gives_nextItem {before : List UInt8} (h : Separates first before) {v : Json}
    (hs : Spells v bytes) (rest : List UInt8) :
    Gives (nextItem first) (before ++ (bytes ++ rest)) true (bytes ++ rest) := by
  obtain ⟨b, more, rfl, hblank, hb, -⟩ := starts_value hs
  rw [List.cons_append]
  cases first with
  | true =>
    refine .bind (gives_peekToken h hblank) ?_
    simp only [hb, if_false, if_true]
    exact .pure true _
  | false =>
    -- Between two items stands a comma, with blanks on either side.
    obtain ⟨front, behind, hfront, hbehind, rfl⟩ := h
    rw [List.append_assoc, List.cons_append]
    refine .bind (gives_peekToken hfront rfl) (.bind gives_skip ?_)
    refine .bind (gives_peekToken hbehind hblank) ?_
    simp only [hb, if_false]
    exact .pure true _

/-- A closing bracket ends a list. -/
theorem gives_endOfList : Gives endOfList (0x5D :: rest) () rest :=
  .bind (gives_peekToken .nil rfl) gives_skip

/-- Items that are all found are read one after the other. -/
theorem gives_items {vs : List Json} {as : List α} (h : List.Forall₂ read.Finds vs as)
    (hs : SpellsItems first vs bytes) (taken : List α) {fuel : Nat} (hfuel : vs.length < fuel) :
    Gives (items read fuel first taken) (bytes ++ rest) (taken.reverse ++ as) (0x5D :: rest) := by
  induction h generalizing first bytes taken fuel with
  | nil =>
    obtain ⟨fuel, rfl⟩ : ∃ n, fuel = n + 1 := ⟨fuel - 1, by omega⟩
    cases hs with
    | nil blank =>
      rw [List.append_assoc, List.append_nil]
      exact .bind (gives_noItem blank first) (.pure _ _)
  | @cons v a vs as found _ ih =>
    obtain ⟨fuel, rfl⟩ : ∃ n, fuel = n + 1 := ⟨fuel - 1, by omega⟩
    cases hs with
    | cons separates value follow =>
      have hmore := ih follow (a :: taken) (Nat.lt_of_succ_lt_succ hfuel)
      rw [List.reverse_cons, List.append_assoc, List.singleton_append] at hmore
      simp only [List.append_assoc]
      refine .bind (gives_nextItem separates value _) ?_
      exact .bind (found [] _ _ .nil value (ends_items follow rest)) hmore

/-- The items of a list are not more than the bytes that spell them. -/
theorem length_of_spellsItems {vs : List Json} (h : SpellsItems first vs bytes) :
    vs.length < bytes.length := by
  induction vs generalizing first bytes with
  | nil =>
    cases h with
    | nil => simp
  | cons v vs ih =>
    cases h with
    | cons _ value follow =>
      have := ih follow
      -- Every value takes at least one byte.
      obtain ⟨b, more, rfl, -⟩ := starts_value value
      simp only [List.length_cons, List.length_append]
      omega

/-- The inside of a list and its closing bracket are read. -/
theorem gives_restOfList {vs : List Json} {as : List α} (h : List.Forall₂ read.Finds vs as)
    (hs : SpellsItems true vs bytes) :
    Gives (closedBy (do items read ((← remaining) + 1) true []) endOfList) (bytes ++ rest) as
      rest := by
  have hlength := length_of_spellsItems hs
  refine .closedBy (.bind gives_remaining (gives_items h hs [] ?_)) gives_endOfList
  rw [List.length_append]
  omega

/-- A list whose items are found is found, one level further out. -/
theorem Finds.listOf {read : Nat → Reader α} {levels : Nat} {vs : List Json} {as : List α}
    (h : List.Forall₂ (read levels).Finds vs as) :
    (listOf read (levels + 1)).Finds (.list vs) as := by
  intro blanks bytes rest hb hs _
  cases hs with
  | list inside =>
    rw [List.cons_append]
    exact .bind (gives_startOfValue hb rfl)
      (.located (.bind gives_skip (gives_restOfList h inside)))

/-! ## Objects -/

/-- The reader of values finds a member under its name. -/
def FindsMember (read : Reader α) (m : String × Json) (e : String × α) : Prop :=
  m.1 = e.1 ∧ read.Finds m.2 e.2

/-- Members that are all found are read one after the other. -/
theorem gives_members {vs : List (String × Json)} {as : List (String × α)}
    (h : List.Forall₂ (FindsMember read) vs as) (hs : SpellsMembers first vs bytes)
    (taken : List (String × α)) {fuel : Nat} (hfuel : vs.length < fuel) :
    Gives (members read fuel first taken) (bytes ++ rest) (taken.reverse ++ as)
      (0x7D :: rest) := by
  induction h generalizing first bytes taken fuel with
  | nil =>
    obtain ⟨fuel, rfl⟩ : ∃ n, fuel = n + 1 := ⟨fuel - 1, by omega⟩
    cases hs with
    | nil blank =>
      rw [List.append_assoc, List.append_nil]
      exact .bind (gives_noMember blank first) (.pure _ _)
  | @cons m e vs as found _ ih =>
    obtain ⟨fuel, rfl⟩ : ∃ n, fuel = n + 1 := ⟨fuel - 1, by omega⟩
    obtain ⟨k, a⟩ := e
    cases hs with
    | @cons _ _ _ behind _ _ name _ _ separates between_blank behind_blank value follow =>
      obtain ⟨rfl, hfinds⟩ := found
      have hmore := ih follow ((name, a) :: taken) (Nat.lt_of_succ_lt_succ hfuel)
      rw [List.reverse_cons, List.append_assoc, List.singleton_append] at hmore
      simp only [List.append_assoc, List.cons_append]
      refine .bind (gives_nextMember separates _ _) ?_
      refine .bind (gives_key _ _) (.bind (gives_colon between_blank _) ?_)
      exact .bind (hfinds behind _ _ behind_blank value (ends_members follow rest)) hmore

/-- The members of an object are not more than the bytes that spell them. -/
theorem length_of_spellsMembers {vs : List (String × Json)} (h : SpellsMembers first vs bytes) :
    vs.length < bytes.length := by
  induction vs generalizing first bytes with
  | nil =>
    cases h with
    | nil => simp
  | cons m vs ih =>
    cases h with
    | cons _ _ _ _ follow =>
      have := ih follow
      simp only [List.length_cons, List.length_append]
      omega

/-- The inside of an object and its closing bracket are read. -/
theorem gives_restOfObject {vs : List (String × Json)} {as : List (String × α)}
    (h : List.Forall₂ (FindsMember read) vs as) (hs : SpellsMembers true vs bytes) :
    Gives (closedBy (do members read ((← remaining) + 1) true []) endOfObject) (bytes ++ rest)
      as rest := by
  have hlength := length_of_spellsMembers hs
  refine .closedBy (.bind gives_remaining (gives_members h hs [] ?_)) gives_endOfObject
  rw [List.length_append]
  omega

/-- An object whose members are found is found, one level further out. -/
theorem Finds.tableOf {read : Nat → Reader α} {levels : Nat} {vs : List (String × Json)}
    {as : List (String × α)} (h : List.Forall₂ (FindsMember (read levels)) vs as) :
    (tableOf read (levels + 1)).Finds (.object vs) as := by
  intro blanks bytes rest hb hs _
  cases hs with
  | object inside =>
    rw [List.cons_append]
    exact .bind (gives_startOfValue hb rfl)
      (.located (.bind gives_skip (gives_restOfObject h inside)))

end Reader

end Deployment.Json
