import Deployment.Proofs.Json.Collection

/-! # What a form writes it reads back

A form restores a value if it finds the value wherever the document that it writes is spelled.
Forms that are put together restore a value if their parts do.

* **`Field.Restores`**, **`Reader.gives_fieldMembers`** — the fields of a record are found one
  after the other.
* **`Form.Restores`** — a form restores a value.
* **`Form.restores_record`** — a record is restored if its fields are.
* **`Form.parse_of_spells`**, **`Form.parse_pretty`** — a value is read back from every text
  that spells its document. -/

namespace Deployment.Json

open Utf8

variable {α β σ : Type}

/-! ## The fields of a record -/

/-- What is written of the field of a record is read back as a change of records; a field that
is left out changes nothing. -/
structure Field.Restores (f : Field σ) (levels : Nat) (s : σ) (change : σ → σ) : Prop where
  written : ∀ v, f.write s = some v → (f.read levels).Finds v change
  left_out : f.write s = none → f.required = false ∧ ∀ state, change state = state

/-- What is written of each field of a record is read back as its change. -/
inductive Restored (levels : Nat) (s : σ) : List (Field σ) → List (σ → σ) → Prop where
  | nil : Restored levels s [] []
  | cons {f : Field σ} {change : σ → σ} {fields : List (Field σ)} {changes : List (σ → σ)}
      (field : f.Restores levels s change) (more : Restored levels s fields changes) :
      Restored levels s (f :: fields) (change :: changes)

/-- The members that are written for fields of a record. -/
def memberList (fields : List (Field σ)) (s : σ) : List (String × Json) :=
  fields.filterMap fun f => (f.write s).map fun v => (f.name, v)

namespace Reader

/-- The fields of a record that are still to be found when those in `seen` were found. -/
structure Pending (slots : List (Slot (Reader (σ → σ)))) (levels : Nat) (seen : List String)
    (fields : List (Field σ)) : Prop where
  known : ∀ f ∈ fields, Slot.find? slots f.name = some (f.slot levels)
  distinct : (fields.map (·.name)).Nodup
  unseen : ∀ f ∈ fields, f.name ∉ seen

namespace Pending

variable {slots : List (Slot (Reader (σ → σ)))} {levels : Nat} {seen : List String}
  {f : Field σ} {fields : List (Field σ)}

/-- The first field was left out. -/
theorem skip (h : Pending slots levels seen (f :: fields)) : Pending slots levels seen fields where
  known g hg := h.known g (List.mem_cons_of_mem _ hg)
  distinct := (List.nodup_cons.1 h.distinct).2
  unseen g hg := h.unseen g (List.mem_cons_of_mem _ hg)

/-- The first field was found. -/
theorem next (h : Pending slots levels seen (f :: fields)) :
    Pending slots levels (f.name :: seen) fields where
  known := h.skip.known
  distinct := h.skip.distinct
  unseen g hg hmem := by
    rcases List.mem_cons.1 hmem with heq | hseen
    · exact (List.nodup_cons.1 h.distinct).1 (List.mem_map.2 ⟨g, hg, heq⟩)
    · exact h.skip.unseen g hg hseen

end Pending

/-- The fields of a record are found one after the other, and none that is required is
missed. -/
theorem gives_fieldMembers {slots : List (Slot (Reader (σ → σ)))} {s : σ} {levels : Nat}
    {fields : List (Field σ)} {changes : List (σ → σ)} (h : Restored levels s fields changes)
    {seen : List String} (hp : Pending slots levels seen fields) {first : Bool}
    {bytes : List UInt8} (hs : SpellsMembers first (memberList fields s) bytes)
    (rest : List UInt8) (state : σ) (fuel : Nat) (hfuel : (memberList fields s).length < fuel) :
    ∃ seen', Gives (fieldMembers slots fuel first state seen) (bytes ++ rest)
        (changes.foldl (fun state change => change state) state, seen') (0x7D :: rest) ∧
      (∀ name ∈ seen, name ∈ seen') ∧ ∀ f ∈ fields, f.required = true → f.name ∈ seen' := by
  -- On the fields in the order in which they were written; those left out of the text are skipped.
  induction h generalizing first bytes seen state fuel with
  | nil =>
    obtain ⟨fuel, rfl⟩ : ∃ n, fuel = n + 1 := ⟨fuel - 1, by omega⟩
    cases hs with
    | nil blank =>
      refine ⟨seen, ?_, fun _ h => h, nofun⟩
      rw [List.append_assoc]
      exact .bind (gives_noMember blank first) (.pure _ _)
  | @cons f change fields changes field more ih =>
    cases hw : f.write s with
    | none =>
      obtain ⟨hrequired, hchange⟩ := field.left_out hw
      have hmembers : memberList (f :: fields) s = memberList fields s := by
        simp only [memberList, List.filterMap_cons, hw, Option.map_none]
      rw [hmembers] at hs hfuel
      obtain ⟨seen', hread, hkeep, hall⟩ := ih hp.skip hs state fuel hfuel
      refine ⟨seen', ?_, hkeep, ?_⟩
      · rw [List.foldl_cons, hchange]
        exact hread
      · intro g hg hr
        rcases List.mem_cons.1 hg with rfl | hg
        · exact absurd hr (by rw [hrequired]; decide)
        · exact hall g hg hr
    | some v =>
      have hmembers : memberList (f :: fields) s = (f.name, v) :: memberList fields s := by
        simp only [memberList, List.filterMap_cons, hw, Option.map_some]
      rw [hmembers] at hs hfuel
      obtain ⟨fuel, rfl⟩ : ∃ n, fuel = n + 1 := ⟨fuel - 1, by omega⟩
      cases hs with
      | @cons _ before between behind bytes rest' _ _ _ separates between_blank behind_blank
          value follow =>
        obtain ⟨seen', hread, hkeep, hall⟩ := ih hp.next follow (change state)
          fuel (Nat.lt_of_succ_lt_succ hfuel)
        refine ⟨seen', ?_, fun name hn => hkeep name (List.mem_cons_of_mem _ hn), ?_⟩
        · -- The slot is known and was not filled yet, so the member is read and its change is
          -- applied.
          have hnew : seen.contains (f.slot levels).name = false := by
            rw [Bool.eq_false_iff]
            exact fun hc => hp.unseen f (List.mem_cons_self ..) (List.contains_iff_mem.1 hc)
          have hvalue := field.written v hw behind bytes (rest' ++ rest) behind_blank value
            (ends_members follow rest)
          simp only [List.append_assoc, List.cons_append]
          refine .bind (gives_nextMember separates f.name _) ?_
          simp only [if_true]
          refine .bind (gives_key f.name _) ?_
          simp only [hp.known f (List.mem_cons_self ..), hnew, Bool.false_eq_true, if_false]
          exact .bind (gives_colon between_blank _) (.bind hvalue hread)
        · intro g hg hr
          rcases List.mem_cons.1 hg with rfl | hg
          · exact hkeep _ (List.mem_cons_self ..)
          · exact hall g hg hr

/-- A slot is found by its name if no other has that name. -/
theorem find?_of_nodup {slots : List (Slot (Reader (σ → σ)))} (h : (Slot.names slots).Nodup)
    {slot : Slot (Reader (σ → σ))} (hm : slot ∈ slots) :
    Slot.find? slots slot.name = some slot := by
  induction slots with
  | nil => exact absurd hm List.not_mem_nil
  | cons head slots ih =>
    have hnodup := List.nodup_cons.1 h
    simp only [Slot.find?, List.find?_cons]
    rcases List.mem_cons.1 hm with rfl | hm
    · simp
    · have hne : head.name ≠ slot.name := fun he =>
        hnodup.1 (List.mem_map.2 ⟨slot, hm, he.symm⟩)
      simp only [hne, decide_false]
      exact ih hnodup.2 hm

end Reader

/-! ## Forms -/

/-- What the form writes of a value it reads back, with `depth` levels of nesting left or more. -/
def Form.Restores (form : Form α) (depth : Nat) (a : α) : Prop :=
  ∀ levels, depth ≤ levels → (form.read levels).Finds (form.write a) a

namespace Field

variable {name : String} {required : Bool} {form : Form α} {depth levels : Nat} {s : σ}

/-- A field is restored if its form restores the value. -/
theorem restores_of {get : σ → α} {set : α → σ → σ} (h : form.Restores depth (get s))
    (hlevels : depth ≤ levels) :
    (Field.of name required form get set).Restores levels s (set (get s)) where
  written := by
    rintro v ⟨⟩
    exact (h levels hlevels).map set
  left_out := nofun

/-- What is read of a field that may be null. -/
def change (get : σ → Option α) (set : Option α → σ → σ) (s : σ) : σ → σ :=
  match get s with
  | none => id
  | some a => set (some a)

/-- A field that may be left out is restored if its form restores the value, and does not write it
as null. -/
theorem restores_optional {get : σ → Option α} {set : Option α → σ → σ}
    (h : ∀ a, get s = some a → form.Restores depth a ∧ form.write a ≠ .null)
    (hlevels : depth ≤ levels) :
    (Field.optional name form get set).Restores levels s (change get set s) where
  written := by
    intro v hv
    obtain ⟨a, ha, rfl⟩ := Option.map_eq_some_iff.1 hv
    rw [change, ha]
    exact (((h a ha).1 levels hlevels).optional (h a ha).2).map set
  left_out := by
    intro hw
    have hnone : get s = none := Option.map_eq_none_iff.1 hw
    refine ⟨rfl, fun state => ?_⟩
    rw [change, hnone]
    rfl

end Field

namespace Form

open Reader

variable {depth : Nat} {a : α}

/-- A text is restored. -/
theorem restores_text (s : String) : text.Restores 0 s := fun _ _ => finds_text s

/-- What is printed as a text is restored if it is judged to be itself. -/
theorem restores_judged {expected : String} {judge : String → Except Mismatch α}
    {print : α → String} (h : judge (print a) = .ok a) :
    (judged expected judge print).Restores 0 a :=
  fun _ _ => finds_judged h

/-- A natural number up to its bound is restored, as long as the bound fits in a word. -/
theorem restores_natural {expected : String} {max n : Nat} (hmax : max ≤ maxWord)
    (hn : n ≤ max) : (natural expected max).Restores 0 n :=
  fun _ _ => finds_natural hmax hn

/-- A form of values that stand for others restores them. -/
theorem Restores.imap {form : Form α} {f : α → β} {g : β → α} {b : β}
    (h : form.Restores depth (g b)) (hfg : f (g b) = b) : (form.imap f g).Restores depth b := by
  intro levels hlevels
  have hmap := (h levels hlevels).map f
  rwa [hfg] at hmap

/-- What is one level further in is found with one level more. -/
theorem restores_succ {form : Form α}
    (h : ∀ levels, depth ≤ levels → (form.read (levels + 1)).Finds (form.write a) a) :
    form.Restores (depth + 1) a := by
  intro levels hlevels
  cases levels with
  | zero => exact absurd hlevels (Nat.not_succ_le_zero depth)
  | succ levels => exact h levels (Nat.le_of_succ_le_succ hlevels)

/-- A value that is chosen by its name is restored by it. -/
theorem restores_choice {names : List (String × α)} {name : α → String}
    (h : NameMap.lookup (name a) names = some a) (hmem : name a ∈ names.map (·.1)) :
    (choice names name).Restores 0 a := by
  intro levels _ blanks bytes rest hb hs he
  refine .bind (finds_choice hmem levels blanks bytes rest hb hs he) ?_
  simp only [h]
  exact .pure a rest

/-- A record is restored if its fields are. -/
theorem restores_record {expected : String} {start s : σ} {fields : List (Field σ)}
    {changes : List (σ → σ)} (h : ∀ levels, depth ≤ levels → Restored levels s fields changes)
    (hnames : (fields.map (·.name)).Nodup)
    (hstate : changes.foldl (fun state change => change state) start = s) :
    (record expected fields start).Restores (depth + 1) s := by
  refine restores_succ fun levels hlevels blanks bytes rest hb hs _ => ?_
  have hslots : (Slot.names (fields.map (·.slot levels))).Nodup := by
    rw [Slot.names, List.map_map]
    exact hnames
  -- Nothing has been read yet, and each field has a slot of its own name.
  have hpending : Pending (fields.map (·.slot levels)) levels [] fields :=
    ⟨fun f hf => find?_of_nodup hslots (List.mem_map_of_mem hf), hnames,
      fun _ _ => List.not_mem_nil⟩
  cases hs with
  | @object _ bytes inside =>
    have hlength : (memberList fields s).length < bytes.length := length_of_spellsMembers inside
    obtain ⟨seen', hread, -, hall⟩ := gives_fieldMembers (h levels hlevels)
      hpending inside rest start ((bytes ++ rest).length + 1)
      (by rw [List.length_append]; omega)
    -- Every required field was written, so none is missing.
    have hmissing : Slot.missing? (fields.map (·.slot levels)) seen' = none := by
      simp only [Slot.missing?, Option.map_eq_none_iff, List.find?_eq_none, List.mem_map]
      rintro slot ⟨f, hf, rfl⟩
      simp only [Bool.and_eq_true, Bool.not_eq_true', not_and, Bool.not_eq_false]
      exact fun hr => List.contains_iff_mem.2 (hall f hf hr)
    rw [List.cons_append]
    refine .bind (gives_startOfValue hb rfl) ?_
    refine .located (.bind gives_skip (.closedBy ?_ gives_endOfObject))
    refine .bind gives_remaining (.bind hread ?_)
    simp only [hmissing, hstate]
    exact .pure s _

/-- A value is read back from every text that spells its document. -/
theorem parse_of_spells {form : Form α} (h : form.Restores depth a) (hdepth : depth ≤ maxLevels)
    {bytes : List UInt8} (hs : Spells (form.write a) bytes) : form.parse bytes = .ok a := by
  have hread := h maxLevels hdepth [] bytes [] .nil hs .nil
  rw [List.nil_append, List.append_nil] at hread
  obtain ⟨p, hp⟩ := hread .start
  have hvalue : form.read maxLevels (.ofBytes bytes) = .ok a ⟨[], p⟩ := hp
  simp only [parse, Json.read, Stateful.run_bind, hvalue, peekToken, passBlanks]
  rfl

/-- The indented text of a value is read back as the value. -/
theorem parse_pretty {form : Form α} (h : form.Restores depth a)
    (hdepth : depth ≤ maxLevels) : form.parse (encode (form.pretty a)) = .ok a :=
  parse_of_spells h hdepth (spells_pretty (form.write a))

end Form

end Deployment.Json
