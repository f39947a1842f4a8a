/-! # Maps from names

A finite map from names, kept in increasing order of the names, so that two maps with the same
entries are equal and iteration order is part of the value. Names are ordered by code point,
which is also the order of their UTF-8 bytes.

* **`NameMap α`** — the map; its entries are strictly increasing.
* **`NameMap.find?`**, **`NameMap.insert`**, **`NameMap.ofList`** — the operations, with
  `find?_insert` and `ofList_entries` as the laws that tie them together. -/

namespace Deployment

/-- A finite map from names to values of `α`, as its entries in strictly increasing order. -/
structure NameMap (α : Type) where
  entries : List (String × α)
  sorted : entries.Pairwise (fun a b => a.1 < b.1)

namespace NameMap

variable {α : Type}

/-- Two maps with the same entries are equal. -/
@[ext] theorem ext {m n : NameMap α} (h : m.entries = n.entries) : m = n := by
  cases m; cases n; simp_all

/-- It can be decided whether two maps are equal: they are if their entries are. -/
instance [DecidableEq α] : DecidableEq (NameMap α) := fun m n =>
  if h : m.entries = n.entries then .isTrue (ext h) else .isFalse fun e => h (e ▸ rfl)

/-- A map is shown by its entries. -/
instance [Repr α] : Repr (NameMap α) := ⟨fun m p => reprPrec m.entries p⟩

/-- The map without entries. -/
def empty : NameMap α := ⟨[], .nil⟩

/-- The map without entries is what empty braces stand for. -/
instance : EmptyCollection (NameMap α) := ⟨empty⟩

/-- There is the map without entries. -/
instance : Inhabited (NameMap α) := ⟨empty⟩

/-- The names of the map, in order. -/
def keys (m : NameMap α) : List String := m.entries.map (·.1)

/-- The values of the map, in the order of their names. -/
def values (m : NameMap α) : List α := m.entries.map (·.2)

/-- The number of entries. -/
def size (m : NameMap α) : Nat := m.entries.length

/-- The map has no entry. -/
def isEmpty (m : NameMap α) : Bool := m.entries.isEmpty

/-- Two entries under one name are the same entry. -/
theorem entry_unique {m : NameMap α} {e e' : String × α} (he : e ∈ m.entries)
    (he' : e' ∈ m.entries) (h : e.1 = e'.1) : e = e' := by
  obtain ⟨l, sorted⟩ := m
  induction l with
  | nil => cases he
  | cons first rest ih =>
    obtain ⟨hfirst, hrest⟩ := List.pairwise_cons.1 sorted
    -- One of the two at the front and the other behind it would put a name before itself.
    rcases List.mem_cons.1 he with rfl | hin <;> rcases List.mem_cons.1 he' with rfl | hin'
    · rfl
    · have hlt := hfirst e' hin'
      rw [h] at hlt
      exact absurd hlt (String.lt_irrefl _)
    · have hlt := hfirst e hin
      rw [h] at hlt
      exact absurd hlt (String.lt_irrefl _)
    · exact ih hrest hin hin'

/-- The value in a list of entries under a name. -/
def lookup (k : String) : List (String × α) → Option α
  | [] => none
  | e :: rest => if e.1 = k then some e.2 else lookup k rest

/-- The value under a name. -/
def find? (m : NameMap α) (k : String) : Option α := lookup k m.entries

/-- The name has an entry. -/
def contains (m : NameMap α) (k : String) : Bool := (m.find? k).isSome

/-- A name has an entry exactly if it is one of the names of the map. -/
theorem contains_iff_mem_keys {m : NameMap α} {k : String} : m.contains k ↔ k ∈ m.keys := by
  rw [contains, find?, keys]
  generalize m.entries = l
  induction l with
  | nil => simp [lookup]
  | cons e rest ih =>
    rw [List.map_cons, List.mem_cons, ← ih, lookup]
    by_cases h : e.1 = k
    · simp [h]
    · simp [h, Ne.symm h]

/-- What is under a name is an entry. -/
theorem mem_of_find? {m : NameMap α} {k : String} {v : α} (h : m.find? k = some v) :
    (k, v) ∈ m.entries := by
  rw [find?] at h
  generalize m.entries = l at h
  induction l with
  | nil => cases h
  | cons e rest ih =>
    rw [lookup] at h
    by_cases hk : e.1 = k
    · rw [if_pos hk] at h
      obtain rfl := Option.some.inj h
      exact hk ▸ List.mem_cons_self
    · rw [if_neg hk] at h
      exact List.mem_cons_of_mem _ (ih h)

/-- Put an entry into its place, over the one of the same name. -/
def place (k : String) (v : α) : List (String × α) → List (String × α)
  | [] => [(k, v)]
  | e :: rest =>
    if k < e.1 then (k, v) :: e :: rest
    else if k = e.1 then (k, v) :: rest
    else e :: place k v rest

/-- What is in the list after `place` was put there or was there before. -/
theorem mem_place {k : String} {v : α} {l : List (String × α)} {x : String × α}
    (h : x ∈ place k v l) : x = (k, v) ∨ x ∈ l := by
  induction l with
  | nil => simpa [place] using h
  | cons e rest ih =>
    simp only [place] at h
    split at h
    · simpa using h
    · split at h
      · rcases List.mem_cons.1 h with h | h
        · exact .inl h
        · exact .inr (List.mem_cons_of_mem _ h)
      · rcases List.mem_cons.1 h with h | h
        · exact .inr (h ▸ List.mem_cons_self)
        · exact (ih h).imp_right (List.mem_cons_of_mem _)

/-- A list that is sorted by names stays so when a value is placed in it. -/
theorem sorted_place (k : String) (v : α) {l : List (String × α)}
    (h : l.Pairwise (fun a b => a.1 < b.1)) :
    (place k v l).Pairwise (fun a b => a.1 < b.1) := by
  induction l with
  | nil => simp [place]
  | cons e rest ih =>
    obtain ⟨he, hr⟩ := List.pairwise_cons.1 h
    simp only [place]
    split
    next hk =>
      refine List.pairwise_cons.2 ⟨fun b hb => ?_, h⟩
      rcases List.mem_cons.1 hb with rfl | hb
      · exact hk
      · exact String.lt_trans hk (he b hb)
    next hk =>
      split
      next heq => exact List.pairwise_cons.2 ⟨fun b hb => heq ▸ he b hb, hr⟩
      -- Neither before nor equal, so it goes somewhere behind the front.
      next hne =>
        refine List.pairwise_cons.2 ⟨fun b hb => ?_, ih hr⟩
        rcases mem_place hb with rfl | hb
        · have := Std.lt_of_le_of_ne (String.not_lt.1 hk) (Ne.symm hne)
          exact this
        · exact he b hb

/-- The map with one entry put in, over the one of the same name. -/
def insert (m : NameMap α) (k : String) (v : α) : NameMap α :=
  ⟨place k v m.entries, sorted_place k v m.sorted⟩

/-- The map of a list of entries; of two entries with one name the later counts. -/
def ofList (l : List (String × α)) : NameMap α :=
  l.foldl (fun m e => m.insert e.1 e.2) empty

/-- A name behind all others is put last. -/
theorem place_last {k : String} {l : List (String × α)} (h : ∀ e ∈ l, e.1 < k) (v : α) :
    place k v l = l ++ [(k, v)] := by
  induction l with
  | nil => rfl
  | cons e rest ih =>
    have hlt := h e List.mem_cons_self
    have hne : k ≠ e.1 := by
      rintro rfl
      exact String.lt_irrefl _ hlt
    rw [place, if_neg (String.lt_asymm hlt), if_neg hne,
      ih fun e' he' => h e' (List.mem_cons_of_mem _ he'), List.cons_append]

/-- Entries whose names grow beyond those of a map are put behind its own. -/
theorem entries_foldl_insert {l : List (String × α)} (hl : l.Pairwise (fun a b => a.1 < b.1))
    {m : NameMap α} (h : ∀ e ∈ m.entries, ∀ e' ∈ l, e.1 < e'.1) :
    (l.foldl (fun m e => m.insert e.1 e.2) m).entries = m.entries ++ l := by
  induction l generalizing m with
  | nil => exact (List.append_nil _).symm
  | cons e rest ih =>
    obtain ⟨hfirst, hrest⟩ := List.pairwise_cons.1 hl
    -- All names so far come before this one, so it is put at the end.
    have hput : (m.insert e.1 e.2).entries = m.entries ++ [e] :=
      place_last (fun e' he' => h e' he' e List.mem_cons_self) e.2
    rw [List.foldl_cons, ih hrest, hput, List.append_assoc, List.singleton_append]
    intro e' he' e'' he''
    rw [hput] at he'
    rcases List.mem_append.1 he' with he' | he'
    · exact h e' he' e'' (List.mem_cons_of_mem _ he'')
    · obtain rfl := List.mem_singleton.1 he'
      exact hfirst e'' he''

/-- A map is the map of its entries. -/
@[simp] theorem ofList_entries (m : NameMap α) : ofList m.entries = m :=
  ext (entries_foldl_insert m.sorted nofun)

/-- After a value is placed under a name it is found there, and all others are found as before. -/
@[simp] theorem lookup_place (k k' : String) (v : α) (l : List (String × α)) :
    lookup k' (place k v l) = if k = k' then some v else lookup k' l := by
  induction l with
  | nil => simp [place, lookup]
  | cons e rest ih =>
    simp only [place]
    split
    · simp [lookup]
    · split
      next h => subst h; simp only [lookup]; split <;> simp_all
      next h => simp only [lookup, ih]; grind

/-- Nothing is found in the empty map. -/
@[simp] theorem find?_empty (k : String) : (empty : NameMap α).find? k = none := rfl

/-- After `insert` the name has the new value and every other name its old one. -/
@[simp] theorem find?_insert (m : NameMap α) (k k' : String) (v : α) :
    (m.insert k v).find? k' = if k = k' then some v else m.find? k' :=
  lookup_place k k' v m.entries

/-- The values changed one by one, under the same names. -/
def map {β : Type} (f : α → β) (m : NameMap α) : NameMap β :=
  ⟨m.entries.map fun e => (e.1, f e.2), by
    rw [List.pairwise_map]; exact m.sorted⟩

/-- A change of the values leaves the names as they are. -/
@[simp] theorem keys_map {β : Type} (f : α → β) (m : NameMap α) : (m.map f).keys = m.keys := by
  simp [keys, map]

/-- No name comes twice. -/
theorem nodup_keys (m : NameMap α) : m.keys.Nodup := by
  rw [keys, List.Nodup, List.pairwise_map]
  refine m.sorted.imp fun {e e'} hlt heq => ?_
  rw [heq] at hlt
  exact String.lt_irrefl _ hlt

end NameMap

end Deployment
