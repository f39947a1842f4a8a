import Deployment.Storage.FileTree

/-! # The places of paths

Where a path leads does not hang on what is there: if the directories on its way are there, the
path leads to the place that its names spell.

* **`Path.place`** — the place that the names of a path spell.
* **`FileTree.Reaches`** — the directory of a path can be entered.
* **`FileTree.resolve_place`** — a path that leads somewhere leads to its place.
* **`FileTree.resolve_join`** — what decides about a file in a directory that can be entered. -/

namespace Deployment

/-! ## The names in a path -/

namespace Path

/-- A text has at least one segment. -/
theorem segments_ne_nil (s : List Char) : segments s ≠ [] := by
  cases s with
  | nil => simp [segments]
  | cons c s =>
    simp only [segments]
    split
    · simp
    · split <;> simp

/-- A slash divides the names before it from the names behind it. -/
@[simp] theorem segments_append_slash (s s' : List Char) :
    segments (s ++ '/' :: s') = segments s ++ segments s' := by
  induction s with
  | nil => simp [segments]
  | cons c s ih =>
    simp only [List.cons_append, segments, ih]
    split
    · simp
    · cases h : segments s with
      | nil => exact absurd h (segments_ne_nil s)
      | cons first rest => simp

/-- Without a slash there is one name. -/
theorem segments_of_notMem {s : List Char} (h : '/' ∉ s) : segments s = [s] := by
  induction s with
  | nil => rfl
  | cons c s ih =>
    have hc : c ≠ '/' := fun hc => h (by simp [hc])
    have hs : '/' ∉ s := fun hs => h (List.mem_cons_of_mem c hs)
    simp [segments, hc, ih hs]

/-- What makes a text a plain name. -/
theorem isPlainName_iff {name : String} : isPlainName name = true ↔
    name ≠ "" ∧ (∀ c ∈ name.toList, c ≠ '/' ∧ c ≠ '\\') ∧ name ≠ "." ∧ name ≠ ".." := by
  simp [isPlainName, and_assoc]

/-- A plain name has no slash. -/
theorem slash_notMem {name : String} (h : isPlainName name = true) : '/' ∉ name.toList :=
  fun hm => ((isPlainName_iff.1 h).2.1 '/' hm).1 rfl

/-- A plain name does not start at the root. -/
theorem isAbsolute_plain {name : String} (h : isPlainName name = true) :
    isAbsolute name = false := by
  cases hl : name.toList with
  | nil => simp [isAbsolute, hl]
  | cons c s =>
    have : c ≠ '/' := fun hc => slash_notMem h (by simp [hl, hc])
    simpa [isAbsolute, hl] using this

/-- The names of a path below a directory are those of the directory and one more. -/
theorem names_join (dir : String) {name : String} (h : isPlainName name = true) :
    names (join dir name) = names dir ++ [name] := by
  have hs := slash_notMem h
  have hne : name.toList ≠ [] := by simpa using (isPlainName_iff.1 h).1
  have hrel := isAbsolute_plain h
  -- a plain name is one segment
  have hone : ((segments name.toList).filter fun s => !s.isEmpty).map String.ofList = [name] := by
    rw [segments_of_notMem hs]
    simp [hne]
  simp only [join, hrel, Bool.false_eq_true, if_false]
  -- the directory is empty, ends in a slash, or needs one
  split
  next hd =>
    rcases Bool.or_eq_true _ _ ▸ hd with hd | hd
    · have he : dir = "" := by simpa [String.isEmpty_iff] using hd
      subst he
      simpa [names, segments] using hone
    · obtain ⟨front, hf⟩ := List.getLast?_eq_some_iff.1 (by simpa using hd)
      simp only [names, String.toList_append, hf, List.append_assoc, List.singleton_append,
        segments_append_slash, List.filter_append, List.map_append, hone]
      simp [segments]
  next hd =>
    simp only [names, String.toList_append, List.append_assoc]
    rw [show "/".toList ++ name.toList = '/' :: name.toList from rfl, segments_append_slash,
      List.filter_append, List.map_append, hone]

/-- A path that ends in a plain name is not empty. -/
theorem isEmpty_join (dir : String) {name : String} (h : isPlainName name = true) :
    (join dir name).isEmpty = false := by
  have hne : names (join dir name) ≠ [] := by simp [names_join dir h]
  rw [Bool.eq_false_iff, ne_eq, String.isEmpty_iff]
  intro he
  exact hne (by simp [he, names, segments])

/-- A path below a directory starts where the directory starts. -/
theorem isAbsolute_join (dir : String) {name : String} (h : isPlainName name = true) :
    isAbsolute (join dir name) = isAbsolute dir := by
  have hrel := isAbsolute_plain h
  simp only [join, hrel, Bool.false_eq_true, if_false]
  by_cases he : dir = ""
  · subst he
    simpa [isAbsolute] using hrel
  · have hl : dir.toList ≠ [] := by simpa using he
    obtain ⟨c, s, hcs⟩ := List.exists_cons_of_ne_nil hl
    split <;> simp [isAbsolute, hcs]

/-- A path below a directory does not end in a slash. -/
theorem getLast?_join (dir : String) {name : String} (h : isPlainName name = true) :
    (join dir name).toList.getLast? ≠ some '/' := by
  have hs := slash_notMem h
  have hne : name.toList ≠ [] := by simpa using (isPlainName_iff.1 h).1
  -- whatever is in front, the last character is one of the name
  have hlast : ∀ front : List Char, (front ++ name.toList).getLast? ≠ some '/' := by
    intro front he
    rw [List.getLast?_append, List.getLast?_eq_some_getLast hne, Option.some_or] at he
    exact hs (Option.some.inj he ▸ List.getLast_mem hne)
  simp only [join]
  split
  · simpa using hlast []
  · split
    · simpa using hlast dir.toList
    · simpa [List.append_assoc] using hlast (dir.toList ++ ['/'])

/-! ## Places -/

/-- The place one name further on, whether or not anything is there. -/
def descend (p : Place) (name : String) : Place :=
  if name = "." then p else if name = ".." then FileTree.above p else p ++ [name]

/-- Where the names of a path are counted from. -/
def origin (path : String) : Place := if isAbsolute path then FileTree.root else []

/-- The place that the names of a path spell. -/
def place (path : String) : Place := (names path).foldl descend (origin path)

/-- A plain name below a directory spells the place of that name in it. -/
theorem place_join (dir : String) {name : String} (h : isPlainName name = true) :
    place (join dir name) = place dir ++ [name] := by
  obtain ⟨-, -, hd, hdd⟩ := isPlainName_iff.1 h
  simp [place, origin, names_join dir h, isAbsolute_join dir h, descend, hd, hdd]

end Path

/-! ## Where paths lead -/

namespace FileTree

variable {t t' : FileTree}

/-- Whoever enters a directory goes one name further. -/
theorem enter_eq {p q : Place} {name : String} (h : t.enter p name = .ok q) :
    q = Path.descend p name := by
  unfold enter at h
  unfold Path.descend
  split at h
  · cases h; simp_all
  · split at h
    · cases h; simp_all
    · split at h
      · cases h
      · split at h <;> cases h
        simp_all

/-- Whoever enters directories one after the other comes to where their names lead. -/
theorem enterAll_eq {names : List String} {p q : Place} (h : names.foldlM t.enter p = .ok q) :
    q = names.foldl Path.descend p := by
  induction names generalizing p with
  | nil => cases h; rfl
  | cons name rest ih =>
    rw [List.foldlM_cons] at h
    cases he : t.enter p name with
    | error f => rw [he] at h; cases h
    | ok r =>
      rw [he] at h
      rw [List.foldl_cons, ← enter_eq he]
      exact ih h

/-- The directory of a path can be entered, all those above it included. -/
def Reaches (t : FileTree) (dir : String) : Prop :=
  (Path.names dir).foldlM t.enter (Path.origin dir) = .ok (Path.place dir)

/-- A directory whose names can be entered one after the other can be reached. -/
theorem reaches_of_enterAll {dir : String} {p : Place}
    (h : (Path.names dir).foldlM t.enter (Path.origin dir) = .ok p) : t.Reaches dir := by
  rw [Reaches, h]
  exact congrArg _ (enterAll_eq h)

/-- A path that leads somewhere leads to its place. -/
theorem resolve_place {path : String} {target : Target} (h : t.resolve path = .ok target) :
    target.place = Path.place path := by
  unfold resolve at h
  simp only [bind, Except.bind, pure, Except.pure, throw, throwThe, MonadExceptOf.throw] at h
  -- the ways in which `resolve` fails come first
  split at h
  · cases h
  · split at h
    · cases h
    · split at h
      · cases h
      · split at h
        next hnil =>
          cases h
          simp [Path.place, Path.origin, List.getLast?_eq_none_iff.1 hnil]
        next last hlast =>
          obtain ⟨front, hf⟩ := List.getLast?_eq_some_iff.1 hlast
          rw [hf, List.dropLast_concat] at h
          split at h
          · cases h
          next p hp =>
            -- the place is where the last name leads from the directory in front
            have hpl : Path.place path = Path.descend p last := by
              rw [Path.place, hf, List.foldl_append, enterAll_eq hp]
              rfl
            rw [hpl, Path.descend]
            split at h
            next hd => cases h; simp [hd]
            next hd =>
              split at h
              next hdd => cases h; simp [hdd]
              next hdd =>
                split at h
                · cases h
                · cases h; simp [hd, hdd]

/-- What decides about a file in a directory: that the path and its last name are such as the
storage takes, and that the directory can be entered. -/
theorem resolve_join (t : FileTree) (dir : String) {name : String}
    (h : Path.isPlainName name = true) :
    t.resolve (Path.join dir name) =
      if (Path.join dir name).toList.contains '\x00' then .error .zeroCharacter
      else if maxPath < (Path.join dir name).utf8ByteSize then .error .nameTooLong
      else match (Path.names dir).foldlM t.enter (Path.origin dir) with
        | .error f => .error f
        | .ok p =>
          if maxName < name.utf8ByteSize then .error .nameTooLong
          else .ok ⟨p ++ [name], false, false⟩ := by
  obtain ⟨hne, -, hd, hdd⟩ := Path.isPlainName_iff.1 h
  have hjoin := Path.isEmpty_join dir h
  unfold resolve
  -- a plain name is neither `.` nor `..`, and nothing follows it
  simp only [bind, Except.bind, pure, Except.pure, throw, throwThe, MonadExceptOf.throw, hjoin,
    Path.names_join dir h, Path.isAbsolute_join dir h, List.getLast?_concat,
    List.dropLast_concat, Path.origin, Path.getLast?_join dir h, hd, hdd, if_false,
    Bool.false_eq_true]
  split
  · rfl
  · split
    · rfl
    · split <;> rename_i he <;> simp only [he]
      simp

/-- A path to a file in a directory that leads somewhere has entered the directory. -/
theorem reaches_of_resolve_join {dir name : String} {target : Target}
    (h : Path.isPlainName name = true) (hr : t.resolve (Path.join dir name) = .ok target) :
    t.Reaches dir ∧ target = ⟨Path.place dir ++ [name], false, false⟩ := by
  rw [resolve_join t dir h] at hr
  split at hr
  · cases hr
  · split at hr
    · cases hr
    · split at hr
      · cases hr
      -- only where the directory is entered something is resolved
      next p hp =>
        split at hr <;> cases hr
        refine ⟨reaches_of_enterAll hp, ?_⟩
        rw [enterAll_eq hp]
        rfl

/-- In directories that can be entered a path leads to the same in every tree. -/
theorem resolve_join_congr {dir name : String} (h : Path.isPlainName name = true)
    (ht : t.Reaches dir) (ht' : t'.Reaches dir) :
    t'.resolve (Path.join dir name) = t.resolve (Path.join dir name) := by
  rw [Reaches] at ht ht'
  rw [resolve_join t dir h, resolve_join t' dir h, ht, ht']

end FileTree

end Deployment
