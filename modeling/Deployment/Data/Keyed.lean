/-! # Tables by key

A table as the list of its entries, one for each key, in the order in which the keys came.

* **`Keyed κ α`** — the table.
* **`Keyed.find?`**, **`Keyed.put`**, **`Keyed.erase`** — the operations, with `find?_put` and
  `find?_erase` as their laws. -/

namespace Deployment

/-- A table of values by key. -/
abbrev Keyed (κ α : Type) := List (κ × α)

namespace Keyed

variable {κ α : Type} [DecidableEq κ]

/-- The value under a key. -/
def find? (k : κ) : Keyed κ α → Option α
  | [] => none
  | e :: rest => if e.1 = k then some e.2 else find? k rest

/-- The key has a value. -/
def contains (k : κ) (t : Keyed κ α) : Bool := (find? k t).isSome

/-- Give a key a value: in the place of the one it has, or behind all others. -/
def put (k : κ) (v : α) : Keyed κ α → Keyed κ α
  | [] => [(k, v)]
  | e :: rest => if e.1 = k then (k, v) :: rest else e :: put k v rest

/-- Take a key away. -/
def erase (k : κ) (t : Keyed κ α) : Keyed κ α := t.filter fun e => e.1 ≠ k

/-- Nothing is found where nothing is kept. -/
@[simp] theorem find?_nil (k : κ) : find? k ([] : Keyed κ α) = none := rfl

/-- A key has a value exactly if one of the entries is under it. -/
theorem contains_iff_mem {k : κ} {t : Keyed κ α} : contains k t ↔ k ∈ t.map (·.1) := by
  induction t with
  | nil => simp [contains]
  | cons e rest ih =>
    rw [List.map_cons, List.mem_cons, ← ih, contains, find?]
    by_cases h : e.1 = k
    · simp [h]
    · simp [h, contains, Ne.symm h]

/-- After `put` the key has the new value and every other key its old one. -/
@[simp] theorem find?_put (k k' : κ) (v : α) (t : Keyed κ α) :
    find? k' (put k v t) = if k = k' then some v else find? k' t := by
  induction t with
  | nil => simp [put, find?]
  | cons e rest ih =>
    simp only [put]
    split
    next h => subst h; simp only [find?]; split <;> simp_all
    next h => simp only [find?, ih]; grind

/-- To put what a key already has changes nothing. -/
theorem put_of_find? {k : κ} {v : α} {t : Keyed κ α} (h : find? k t = some v) : put k v t = t := by
  induction t with
  | nil => cases h
  | cons e rest ih =>
    rw [find?] at h
    rw [put]
    by_cases hk : e.1 = k
    · rw [if_pos hk] at h ⊢
      rw [← hk, ← Option.some.inj h]
    · rw [if_neg hk] at h ⊢
      rw [ih h]

/-- A key that a filter of keys keeps has its old value, and any other has none. -/
theorem find?_filter_key (keep : κ → Bool) (k : κ) (t : Keyed κ α) :
    find? k (t.filter fun e => keep e.1) = if keep k then find? k t else none := by
  induction t with
  | nil => simp
  | cons e rest ih =>
    rw [List.filter_cons]
    split
    next h => simp only [find?, ih]; grind
    next h => simp only [ih, find?]; grind

/-- After `erase` the key has no value and every other key its old one. -/
@[simp] theorem find?_erase (k k' : κ) (t : Keyed κ α) :
    find? k' (erase k t) = if k = k' then none else find? k' t := by
  have h := find?_filter_key (fun key => decide (key ≠ k)) k' t
  unfold erase
  rw [h]
  by_cases hk : k = k' <;> simp [hk, eq_comm]

/-! Keys that differ stay so, and where they do an entry is what is found under its key. -/

/-- A key that is kept after a change was kept before, or it is the one of the change. -/
theorem mem_keys_put {k k' : κ} {v : α} {t : Keyed κ α} (h : k' ∈ (put k v t).map (·.1)) :
    k' = k ∨ k' ∈ t.map (·.1) := by
  rw [← contains_iff_mem, contains, find?_put] at h
  rw [← contains_iff_mem, contains]
  by_cases hk : k = k'
  · exact .inl hk.symm
  · rw [if_neg hk] at h
    exact .inr h

/-- Keys that differ still differ after a value is put under one of them. -/
theorem nodup_put {t : Keyed κ α} (h : (t.map (·.1)).Nodup) (k : κ) (v : α) :
    ((put k v t).map (·.1)).Nodup := by
  induction t with
  | nil => simp [put]
  | cons e rest ih =>
    rw [List.map_cons, List.nodup_cons] at h
    rw [put]
    split
    next hk =>
      rw [List.map_cons, List.nodup_cons]
      exact ⟨hk ▸ h.1, h.2⟩
    next hk =>
      rw [List.map_cons, List.nodup_cons]
      exact ⟨fun hmem => (mem_keys_put hmem).elim hk h.1, ih h.2⟩

/-- Keys that differ still differ after one of them is taken out. -/
theorem nodup_erase {t : Keyed κ α} (h : (t.map (·.1)).Nodup) (k : κ) :
    ((erase k t).map (·.1)).Nodup :=
  h.sublist (List.filter_sublist.map _)

/-- Where keys differ, each entry is the one that is found under its key. -/
theorem find?_of_mem {t : Keyed κ α} (h : (t.map (·.1)).Nodup) {e : κ × α} (he : e ∈ t) :
    find? e.1 t = some e.2 := by
  induction t with
  | nil => cases he
  | cons e' rest ih =>
    rw [List.map_cons, List.nodup_cons] at h
    rw [find?]
    rcases List.mem_cons.1 he with rfl | he
    · rw [if_pos rfl]
    · have hne : e'.1 ≠ e.1 := fun hk => h.1 (hk ▸ List.mem_map.2 ⟨e, he, rfl⟩)
      rw [if_neg hne, ih h.2 he]

end Keyed

end Deployment
