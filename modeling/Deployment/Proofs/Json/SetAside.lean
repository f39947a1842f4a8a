import Deployment.Proofs.Json.Nesting

/-! # Documents are set aside as they are

A part of a document whose type is not known yet is kept whole until it is, and with it the
rest of an object behind its tag.

* **`Json.setAside`** — a document as it is kept.
* **`Json.Textual`** — the documents of texts, lists and objects.
* **`Json.Textual.finds_buffered`** — these are kept as they are.
* **`Reader.finds_tagged`**, **`Buffered.readTagged_setAside`** — the tag of an object and the
  rest of it are found, in a text and in what was kept. -/

namespace Deployment

open Utf8

namespace Json

mutual

/-- A document as it is kept when it is set aside. -/
def setAside : Json → Buffered
  | .null => .null
  | .bool b => .bool b
  | .number (.ofNat n) => .natural n
  | .number (.negSucc n) => .negative (.negSucc n)
  | .text s => .text s
  | .list items => .list (setAsideItems items)
  | .object members => .table (setAsideMembers members)

/-- The items, each as it is kept. -/
def setAsideItems : List Json → List Buffered
  | [] => []
  | v :: rest => setAside v :: setAsideItems rest

/-- The members as entries under their names. -/
def setAsideMembers : List (String × Json) → List (Buffered × Buffered)
  | [] => []
  | (k, v) :: rest => (.text k, setAside v) :: setAsideMembers rest

end

/-- Items are set aside one by one. -/
theorem setAsideItems_eq (items : List Json) : setAsideItems items = items.map setAside := by
  induction items with
  | nil => rfl
  | cons v rest ih => rw [setAsideItems, ih, List.map_cons]

/-- Members are set aside one by one, each with its name. -/
theorem setAsideMembers_eq (members : List (String × Json)) :
    setAsideMembers members = members.map fun m => (.text m.1, m.2.setAside) := by
  induction members with
  | nil => rfl
  | cons m rest ih => rw [setAsideMembers, ih, List.map_cons]

mutual

/-- What is kept is nested as deep as the document. -/
theorem depth_setAside : ∀ v : Json, v.setAside.depth = v.depth
  | .null => rfl
  | .bool _ => rfl
  | .number (.ofNat _) => rfl
  | .number (.negSucc _) => rfl
  | .text _ => rfl
  | .list items => congrArg (· + 1) (depth_setAsideItems items)
  | .object members => congrArg (· + 1) (depth_setAsideMembers members)

/-- Items that are set aside are nested as deep as before. -/
theorem depth_setAsideItems : ∀ items : List Json,
    Buffered.depthItems (setAsideItems items) = depthItems items
  | [] => rfl
  | v :: rest => by
    rw [setAsideItems, Buffered.depthItems, depthItems, depth_setAside v,
      depth_setAsideItems rest]

/-- Members that are set aside are nested as deep as before. -/
theorem depth_setAsideMembers : ∀ members : List (String × Json),
    Buffered.depthEntries (setAsideMembers members) = depthMembers members
  | [] => rfl
  | (k, v) :: rest => by
    have hkey : (Buffered.text k).depth = 0 := rfl
    rw [setAsideMembers, Buffered.depthEntries, depthMembers, depth_setAside v,
      depth_setAsideMembers rest, hkey, Nat.zero_max]

end

/-- A document of texts, lists and objects. Numbers are left out, since one beyond 64 bits is not
kept as it is. -/
inductive Textual : Json → Prop where
  | text (s : String) : Textual (.text s)
  | list {items : List Json} (inside : ∀ v ∈ items, Textual v) : Textual (.list items)
  | object {members : List (String × Json)} (inside : ∀ m ∈ members, Textual m.2) :
      Textual (.object members)

/-! ## Reading from a text -/

namespace Reader

/-- A text is kept as it is. -/
theorem finds_buffered_text (s : String) (levels : Nat) :
    (buffered levels).Finds (.text s) (.text s) := by
  intro blanks bytes rest hb hs _
  cases hs
  have hscalar : Gives (bufferedScalar 0x22) (encode (quote s) ++ rest) (.text s) rest := by
    rw [quote_append]
    exact .bind gives_skip ((gives_quotedText s rest).map _)
  rw [quote_append] at hscalar ⊢
  cases levels <;> exact .bind (gives_startOfValue hb isBlank_quote) hscalar

/-- A list is kept with its items. -/
theorem finds_buffered_list {levels : Nat} {vs : List Json} {as : List Buffered}
    (h : List.Forall₂ (buffered levels).Finds vs as) :
    (buffered (levels + 1)).Finds (.list vs) (.list as) := by
  intro blanks bytes rest hb hs _
  cases hs with
  | list inside =>
    rw [List.cons_append]
    exact .bind (gives_startOfValue hb rfl)
      (.bind gives_skip ((gives_restOfList h inside).map Buffered.list))

/-- An object is kept with its members. -/
theorem finds_buffered_object {levels : Nat} {vs : List (String × Json)}
    {as : List (String × Buffered)} (h : List.Forall₂ (FindsMember (buffered levels)) vs as) :
    (buffered (levels + 1)).Finds (.object vs) (.table (as.map fun e => (.text e.1, e.2))) := by
  intro blanks bytes rest hb hs _
  cases hs with
  | object inside =>
    rw [List.cons_append]
    exact .bind (gives_startOfValue hb rfl)
      (.bind gives_skip (.bind (gives_restOfObject h inside) (.pure _ _)))

end Reader

open Reader

/-- A document of texts, lists and objects is kept as it is. -/
theorem Textual.finds_buffered {v : Json} (h : v.Textual) {levels : Nat}
    (hlevels : v.depth ≤ levels) : (buffered levels).Finds v v.setAside := by
  induction h generalizing levels with
  | text s => exact finds_buffered_text s levels
  | @list items _ ih =>
    rw [depth] at hlevels
    obtain ⟨levels, rfl⟩ : ∃ n, levels = n + 1 := ⟨levels - 1, by omega⟩
    rw [setAside, setAsideItems_eq]
    refine finds_buffered_list (List.forall₂_map_right_iff.2 (List.forall₂_same.2 fun v hv => ?_))
    exact ih v hv (Nat.le_trans (depth_le_depthItems hv) (Nat.le_of_succ_le_succ hlevels))
  | @object members _ ih =>
    rw [depth] at hlevels
    obtain ⟨levels, rfl⟩ : ∃ n, levels = n + 1 := ⟨levels - 1, by omega⟩
    have hfound : List.Forall₂ (FindsMember (buffered levels)) members
        (members.map fun m => (m.1, m.2.setAside)) :=
      List.forall₂_map_right_iff.2 (List.forall₂_same.2 fun m hm => ⟨rfl, ih m hm
        (Nat.le_trans (depth_le_depthMembers hm) (Nat.le_of_succ_le_succ hlevels))⟩)
    have hobject := finds_buffered_object hfound
    rw [List.map_map] at hobject
    rw [setAside, setAsideMembers_eq]
    exact hobject

/-! ## Tagged objects -/

/-- The members of an object behind its tag. -/
structure BehindTag (tag : String) (members : List (String × Json)) : Prop where
  untagged : ∀ m ∈ members, m.1 ≠ tag
  textual : ∀ m ∈ members, m.2.Textual

namespace BehindTag

variable {tag : String} {m : String × Json} {members : List (String × Json)}

/-- Behind the tag no further member has its name. -/
theorem tail (h : BehindTag tag (m :: members)) : BehindTag tag members where
  untagged m' hm := h.untagged m' (List.mem_cons_of_mem _ hm)
  textual m' hm := h.textual m' (List.mem_cons_of_mem _ hm)

end BehindTag

namespace Reader

variable {tag kind expected : String} {names : List String} {levels : Nat}
  {members : List (String × Json)}

/-- The members behind the tag are set aside one after the other. -/
theorem gives_taggedMembers (h : BehindTag tag members) (hlevels : depthMembers members ≤ levels)
    {bytes rest : List UInt8} (hs : SpellsMembers false members bytes) (found : Option String)
    (taken : List (Buffered × Buffered)) {fuel : Nat} (hfuel : members.length < fuel) :
    Gives (taggedMembers tag names levels fuel false found taken) (bytes ++ rest)
      (found, taken.reverse ++ setAsideMembers members) (0x7D :: rest) := by
  -- The levels bound all values at once, so they bound those that follow.
  induction members generalizing bytes taken fuel with
  | nil =>
    obtain ⟨fuel, rfl⟩ : ∃ n, fuel = n + 1 := ⟨fuel - 1, by omega⟩
    cases hs with
    | nil blank =>
      rw [List.append_assoc, setAsideMembers, List.append_nil]
      exact .bind (gives_noMember blank false) (.pure _ _)
  | cons m members ih =>
    obtain ⟨fuel, rfl⟩ : ∃ n, fuel = n + 1 := ⟨fuel - 1, by omega⟩
    have huntagged := h.untagged m List.mem_cons_self
    have hvalue := (h.textual m List.mem_cons_self).finds_buffered
      (Nat.le_trans (depth_le_depthMembers List.mem_cons_self) hlevels)
    have hmore := Nat.le_trans (Nat.le_max_right m.2.depth (depthMembers members)) hlevels
    cases hs with
    | @cons _ _ _ behind _ _ k v _ separates between_blank behind_blank value follow =>
      have hrest := ih h.tail hmore follow ((.text k, v.setAside) :: taken)
        (Nat.lt_of_succ_lt_succ hfuel)
      rw [List.reverse_cons, List.append_assoc, List.singleton_append] at hrest
      simp only [List.append_assoc, List.cons_append]
      refine .bind (gives_nextMember separates _ _) ?_
      simp only [if_true]
      refine .bind (gives_key _ _) ?_
      rw [if_neg huntagged]
      refine .bind (gives_colon between_blank _) ?_
      exact .bind (hvalue behind _ _ behind_blank value (ends_members follow rest)) hrest

/-- The tag is found first, and the members behind it are set aside. -/
theorem gives_tagFirst (hkind : kind ∈ names) (h : BehindTag tag members)
    (hlevels : depthMembers members ≤ levels) {bytes rest : List UInt8}
    (hs : SpellsMembers true ((tag, .text kind) :: members) bytes) {fuel : Nat}
    (hfuel : members.length + 1 < fuel) :
    Gives (taggedMembers tag names levels fuel true none []) (bytes ++ rest)
      (some kind, setAsideMembers members) (0x7D :: rest) := by
  obtain ⟨fuel, rfl⟩ : ∃ n, fuel = n + 1 := ⟨fuel - 1, by omega⟩
  -- The tag comes first, so it is known before any other member is set aside.
  cases hs with
  | @cons _ _ _ behind _ _ _ _ _ separates between_blank behind_blank value follow =>
    simp only [List.append_assoc, List.cons_append]
    refine .bind (gives_nextMember separates _ _) ?_
    simp only [if_true]
    refine .bind (gives_key _ _) ?_
    simp only [if_true, Option.isSome_none, Bool.false_eq_true, if_false]
    refine .bind (gives_colon between_blank _) ?_
    exact .bind (finds_variant hkind behind _ _ behind_blank value (ends_members follow rest))
      (gives_taggedMembers h hlevels follow (some kind) [] (Nat.lt_of_succ_lt_succ hfuel))

/-- An object whose first member is its tag is found as the tag and the rest. -/
theorem finds_tagged (hkind : kind ∈ names) (h : BehindTag tag members)
    (hlevels : depthMembers members ≤ levels) :
    (tagged expected tag names (levels + 1)).Finds (.object ((tag, .text kind) :: members))
      (kind, .table (setAsideMembers members)) := by
  intro blanks bytes rest hb hs _
  cases hs with
  | @object _ bytes inside =>
    have hfuel : members.length + 1 < (bytes ++ rest).length + 1 := by
      have hlength := length_of_spellsMembers inside
      rw [List.length_cons] at hlength
      rw [List.length_append]
      omega
    rw [List.cons_append]
    refine .bind (gives_startOfValue hb rfl) ?_
    refine .located (.bind gives_skip (.closedBy ?_ gives_endOfObject))
    exact .bind gives_remaining (.bind (gives_tagFirst hkind h hlevels inside hfuel) (.pure _ _))

end Reader

end Json

/-! ## Reading from what was set aside -/

namespace Buffered

open Json

/-- A list whose items are read back is read back. -/
theorem readList_setAside {α : Type} {read : Buffered → Except Mismatch α} {write : α → Json}
    {l : List α} (h : ∀ a ∈ l, read (write a).setAside = .ok a) :
    readList read (.list (setAsideItems (l.map write))) = .ok l := by
  rw [setAsideItems_eq, List.map_map]
  exact Failing.mapM_map_ok h

/-- The tag of an object that was set aside and the rest of it are found. -/
theorem readTagged_setAside {expected tag kind : String} {names : List String}
    {members : List (String × Json)} (hkind : kind ∈ names) (h : BehindTag tag members) :
    (Json.object ((tag, .text kind) :: members)).setAside.readTagged expected tag names =
      .ok (kind, .table (setAsideMembers members)) := by
  have hvariant : chosenVariant names (.text kind) = .ok kind :=
    if_pos (List.contains_iff_mem.2 hkind)
  rw [setAside, setAsideMembers, setAside, setAsideMembers_eq, readTagged]
  simp only [List.foldlM_cons, if_true, Option.isSome_none, Bool.false_eq_true, if_false,
    hvariant, Failing.ok_bind, Failing.pure_eq]
  -- Behind the tag no member has its name, so they are all taken over.
  rw [Failing.foldlM_take]
  · rfl
  · intro e he found taken
    obtain ⟨m, hm, rfl⟩ := List.mem_map.1 he
    simp only [if_neg (h.untagged m hm)]

end Buffered

end Deployment
