import Deployment.Proofs.Json.Form

/-! # Values are read back at the depth of their documents

A reader needs as many levels as the lists and objects of a document are nested. A form is
faithful to a value if that many levels are enough for it to read the value back.

* **`Json.depth`** — how deep the lists and objects of a document are nested.
* **`Form.Faithful`** — a form reads a value back.
* **`Form.faithful_list`**, **`.faithful_table`**, **`.faithful_record`** — a form that is put
  together is faithful if its parts are.
* **`Form.RoundTrips`** — the texts of all values are read back, so they tell them apart. -/

namespace Deployment.Json

open Utf8

variable {α σ : Type}

/-! ## Depth -/

mutual

/-- How deep lists and objects are nested. -/
def depth : Json → Nat
  | .list items => depthItems items + 1
  | .object members => depthMembers members + 1
  | _ => 0

/-- The depth of the deepest item. -/
def depthItems : List Json → Nat
  | [] => 0
  | v :: rest => max (depth v) (depthItems rest)

/-- The depth of the deepest value. -/
def depthMembers : List (String × Json) → Nat
  | [] => 0
  | (_, v) :: rest => max (depth v) (depthMembers rest)

end

/-- An item is nested at most as deep as all of them. -/
theorem depth_le_depthItems {v : Json} {items : List Json} (h : v ∈ items) :
    v.depth ≤ depthItems items := by
  induction items with
  | nil => exact absurd h List.not_mem_nil
  | cons w rest ih =>
    rw [depthItems]
    rcases List.mem_cons.1 h with rfl | h
    · exact Nat.le_max_left _ _
    · exact Nat.le_trans (ih h) (Nat.le_max_right _ _)

/-- A member is nested at most as deep as all of them. -/
theorem depth_le_depthMembers {m : String × Json} {members : List (String × Json)}
    (h : m ∈ members) : m.2.depth ≤ depthMembers members := by
  induction members with
  | nil => exact absurd h List.not_mem_nil
  | cons m' rest ih =>
    rw [depthMembers]
    rcases List.mem_cons.1 h with rfl | h
    · exact Nat.le_max_left _ _
    · exact Nat.le_trans (ih h) (Nat.le_max_right _ _)

/-! ## Faithful forms -/

/-- What the form writes of a value it reads back, with the depth of the document as the levels
of nesting that are left. -/
def Form.Faithful (form : Form α) (a : α) : Prop := form.Restores (form.write a).depth a

/-- What is written of the field of a record is read back as a change of records, with the depth
of the value as the levels of nesting that are left. -/
def Field.Faithful (s : σ) (f : Field σ) (change : σ → σ) : Prop :=
  ∀ levels, (∀ v, f.write s = some v → v.depth ≤ levels) → f.Restores levels s change

namespace Field

variable {name : String} {required : Bool} {form : Form α} {s : σ}

/-- A field is faithful to a value that its form is faithful to. -/
theorem faithful_of {get : σ → α} {set : α → σ → σ} (h : form.Faithful (get s)) :
    Faithful s (Field.of name required form get set) (set (get s)) :=
  fun _ hlevels => restores_of h (hlevels _ rfl)

/-- A field that may be left out is faithful to a value that its form is faithful to and does not
write as null. -/
theorem faithful_optional {get : σ → Option α} {set : Option α → σ → σ}
    (h : ∀ a, get s = some a → form.Faithful a ∧ form.write a ≠ .null) :
    Faithful s (Field.optional name form get set) (change get set s) := by
  intro levels hlevels
  refine restores_optional (fun a ha => ⟨fun more hmore => ?_, (h a ha).2⟩) (Nat.le_refl levels)
  have hdepth := hlevels (form.write a) (congrArg (Option.map form.write) ha)
  exact (h a ha).1 more (Nat.le_trans hdepth hmore)

end Field

/-- Faithful fields are read back with the depth of the object that they are written to. -/
theorem restored_of_faithful {s : σ} {fields : List (Field σ)} {changes : List (σ → σ)}
    (h : List.Forall₂ (Field.Faithful s) fields changes) {levels : Nat}
    (hlevels : depthMembers (memberList fields s) ≤ levels) :
    Restored levels s fields changes := by
  induction h with
  | nil => exact .nil
  | @cons f change fields changes field _ ih =>
    have hdepth : ∀ m ∈ memberList (f :: fields) s, m.2.depth ≤ levels :=
      fun m hm => Nat.le_trans (depth_le_depthMembers hm) hlevels
    refine .cons (field levels fun v hv => hdepth (f.name, v) ?_) (ih ?_)
    · simp only [memberList, List.filterMap_cons, hv, Option.map_some]
      exact List.mem_cons_self
    · refine Nat.le_trans ?_ hlevels
      cases hw : f.write s with
      | none => simp only [memberList, List.filterMap_cons, hw, Option.map_none, Nat.le_refl]
      | some v =>
        simp only [memberList, List.filterMap_cons, hw, Option.map_some, depthMembers]
        exact Nat.le_max_right _ _

namespace Form

open Reader

/-- A text is read as it is written, whatever it holds. -/
theorem faithful_text (s : String) : text.Faithful s := restores_text s

/-- A value that is chosen by its name is read as it is written. -/
theorem faithful_choice {names : List (String × α)} {name : α → String} {a : α}
    (h : NameMap.lookup (name a) names = some a) (hmem : name a ∈ names.map (·.1)) :
    (choice names name).Faithful a := restores_choice h hmem

/-- A list is read back if its items are. -/
theorem faithful_list {form : Form α} {l : List α} (h : ∀ a ∈ l, form.Faithful a) :
    (list form).Faithful l := by
  refine restores_succ fun levels hlevels => .listOf ?_
  refine List.forall₂_map_left_iff.2 (List.forall₂_same.2 fun a ha => ?_)
  exact h a ha levels (Nat.le_trans (depth_le_depthItems (List.mem_map_of_mem ha)) hlevels)

/-- A map is read back if its values are. -/
theorem faithful_table {form : Form α} {m : NameMap α}
    (h : ∀ e ∈ m.entries, form.Faithful e.2) : (table form).Faithful m := by
  refine restores_succ fun levels hlevels => ?_
  have hfinds : (tableOf form.read (levels + 1)).Finds ((table form).write m) m.entries := by
    refine .tableOf (List.forall₂_map_left_iff.2 (List.forall₂_same.2 fun e he => ⟨rfl, ?_⟩))
    refine h e he levels (Nat.le_trans ?_ hlevels)
    exact depth_le_depthMembers (m := (e.1, form.write e.2)) (List.mem_map_of_mem he)
  have hmap := hfinds.map NameMap.ofList
  rwa [NameMap.ofList_entries] at hmap

/-- A record is read back if its fields are. -/
theorem faithful_record {expected : String} {start s : σ} {fields : List (Field σ)}
    {changes : List (σ → σ)} (h : List.Forall₂ (Field.Faithful s) fields changes)
    (hnames : (fields.map (·.name)).Nodup)
    (hstate : changes.foldl (fun state change => change state) start = s) :
    (record expected fields start).Faithful s :=
  restores_record (fun _ hlevels => restored_of_faithful h hlevels) hnames hstate

/-! ## Texts -/

/-- Two values with one spelling are equal. -/
theorem eq_of_spells {form : Form α} {a b : α} (ha : form.Faithful a) (hb : form.Faithful b)
    {bytes : List UInt8} (hsa : Spells (form.write a) bytes) (hsb : Spells (form.write b) bytes) :
    a = b := by
  -- Both values are what one reader reads from the one text, given levels enough for either.
  let levels := max (form.write a).depth (form.write b).depth
  obtain ⟨p, hp⟩ := ha levels (Nat.le_max_left _ _) [] bytes [] .nil hsa .nil .start
  obtain ⟨q, hq⟩ := hb levels (Nat.le_max_right _ _) [] bytes [] .nil hsb .nil .start
  rw [hp] at hq
  injection hq

/-- The texts of all values whose documents are nested less than 128 levels deep are read back.
Different values have different texts, and what was read from some text is read again from the
texts that it is written to. -/
structure RoundTrips (form : Form α) : Prop where
  compact : ∀ a, (form.write a).depth < 128 → form.parse (encode (form.compact a)) = .ok a
  pretty : ∀ a, (form.write a).depth < 128 → form.parse (encode (form.pretty a)) = .ok a
  compact_injective : Function.Injective form.compact
  pretty_injective : Function.Injective form.pretty
  again : ∀ bytes a, form.parse bytes = .ok a → (form.write a).depth < 128 →
    form.parse (encode (form.compact a)) = form.parse bytes ∧
      form.parse (encode (form.pretty a)) = form.parse bytes

/-- A form that is faithful to all values reads the texts of all values back. -/
theorem roundTrips_of_faithful {form : Form α} (h : ∀ a, form.Faithful a) : form.RoundTrips := by
  have hcompact : ∀ a, (form.write a).depth < 128 →
      form.parse (encode (form.compact a)) = .ok a :=
    fun a hdepth => parse_of_spells (h a) (Nat.le_of_lt_succ hdepth) (spells_compact _)
  have hpretty : ∀ a, (form.write a).depth < 128 →
      form.parse (encode (form.pretty a)) = .ok a :=
    fun a hdepth => parse_pretty (h a) (Nat.le_of_lt_succ hdepth)
  refine ⟨hcompact, hpretty, fun a b heq => ?_, fun a b heq => ?_, fun bytes a hread hdepth => ?_⟩
  · exact eq_of_spells (h a) (h b) (spells_compact _)
      (congrArg encode heq ▸ spells_compact (form.write b))
  · exact eq_of_spells (h a) (h b) (spells_pretty _)
      (congrArg encode heq ▸ spells_pretty (form.write b))
  · exact ⟨(hcompact a hdepth).trans hread.symm, (hpretty a hdepth).trans hread.symm⟩

end Form

end Deployment.Json
