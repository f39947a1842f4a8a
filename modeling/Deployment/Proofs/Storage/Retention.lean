import Deployment.Proofs.Storage.Change
import Mathlib.Logic.Relation

/-! # What was there stays

A change may add to the files wherever nothing was. What counts is that nothing that was there
changes, but for the places that the change is about.

* **`FileTree.Retains`** — nothing that was there has changed, but for some places.
* **`Retains.read`** — a file that is not at one of these places reads as before.
* **`Files.createDirectories_induct`** — what making one directory keeps, making many keeps.
* **`Files.createDirectories_makes`** — making directories makes one after the other, none but the
  one asked for and those above it.
* **`Files.createDirectories_retains`** — making directories adds to the files only.
* **`Files.createDirectories_made`** — a directory that was made can be made again. -/

namespace Deployment

open Stateful

namespace FileTree

variable {t t' t'' : FileTree} {P X Y : Place → Prop} {path dir name : String}

/-! ## Retention -/

/-- Nothing that was there has changed, but for some places. -/
def Retains (X : Place → Prop) (t t' : FileTree) : Prop :=
  ChangesOnly (fun p => t.find? p = none ∨ X p) t t'

/-- What changes only some places retains everything at the others. -/
theorem ChangesOnly.retains (h : ChangesOnly X t t') : Retains X t t' :=
  h.mono fun _ hp => .inr hp

namespace Retains

/-- Where nothing is done, everything is retained. -/
theorem refl (X : Place → Prop) (t : FileTree) : Retains X t t := ChangesOnly.refl _ t

/-- What is retained outside of some places is retained outside of more of them. -/
theorem mono (hXY : ∀ p, X p → Y p) (h : Retains X t t') : Retains Y t t' :=
  ChangesOnly.mono (fun p hp => hp.imp_right (hXY p)) h

/-- What stands at a place that is retained is as it was. -/
theorem same (h : Retains X t t') {p : Place} (hp : t.find? p ≠ none) (hX : ¬ X p) :
    Same t t' p :=
  ChangesOnly.same h p fun hor => hor.elim hp hX

/-- What is retained, and then again, is retained. -/
theorem trans (h : Retains X t t') (h' : Retains X t' t'') : Retains X t t'' where
  same p hp := by
    have hsame := ChangesOnly.same h p hp
    rw [not_or] at hp
    refine hsame.trans (h'.same ?_ hp.2)
    rw [hsame.find]
    exact hp.1
  directory p hp := ChangesOnly.directory h' p (ChangesOnly.directory h p hp)

/-- A file that was there reads as before. -/
theorem read {bytes : List UInt8} (h : Retains X t t') (hn : Path.isPlainName name = true)
    (hX : ¬ X (Path.place (Path.join dir name)))
    (hr : t.read (Path.join dir name) = .ok bytes) : t'.read (Path.join dir name) = .ok bytes := by
  cases hres : t.resolve (Path.join dir name) with
  | error f =>
    simp only [FileTree.read, look, hres, Failing.error_bind] at hr
    cases hr
  | ok target =>
    have hreach := (reaches_of_resolve_join hn hres).1
    -- what was read was there, and is kept for that
    have hthere : t.find? (Path.place (Path.join dir name)) ≠ none := by
      intro hnone
      rw [read_of_resolve hres, resolve_place hres, hnone] at hr
      cases hr
    have hsame := h.same hthere hX
    rw [Path.place_join _ hn] at hsame
    rw [read_join_congr hn hreach (ChangesOnly.reaches h hreach) hsame, hr]

end Retains

/-! ## Directories -/

/-- A path to a directory leads to a place where one is. -/
theorem isDirectory_iff : t.isDirectory path = true ↔
    ∃ target, t.resolve path = .ok target ∧ t.find? target.place = some .directory := by
  unfold isDirectory look
  cases hr : t.resolve path with
  | error f => simp [Failing.error_bind]
  | ok target =>
    simp only [Failing.ok_bind]
    cases hf : t.find? target.place with
    | none => simp [hf, pure, Except.pure]
    | some e =>
      -- a directory is looked at with or without a slash behind its path
      cases e with
      | directory => simp [hf, pure, Except.pure]
      | file n => cases hs : target.slash <;>
          simp [hf, pure, Except.pure, throw, throwThe, MonadExceptOf.throw]
      | fullDevice => cases hs : target.slash <;>
          simp [hf, pure, Except.pure, throw, throwThe, MonadExceptOf.throw]

/-- A directory stays one. -/
theorem ChangesOnly.isDirectory (h : ChangesOnly P t t') (hn : Path.isPlainName name = true)
    (hd : t.isDirectory (Path.join dir name) = true) :
    t'.isDirectory (Path.join dir name) = true := by
  obtain ⟨target, hr, hf⟩ := isDirectory_iff.1 hd
  have hreach := (reaches_of_resolve_join hn hr).1
  refine isDirectory_iff.2 ⟨target, ?_, h.directory _ hf⟩
  rw [resolve_join_congr hn hreach (h.reaches hreach), hr]

end FileTree

/-- A directory is no file. -/
theorem Entry.directory_ne_file (n : Nat) : Entry.directory ≠ .file n := nofun

/-- One path is the other, or leads to a directory above it. -/
def Path.IsAbove (q path : String) : Prop :=
  Relation.ReflTransGen (fun p p' => Path.parent? p = some p') path q

namespace Files

open FileTree

variable {t t' : FileTree} {path dir name : String}

/-- A directory is made where nothing was, at a path or above it. -/
def MakesDirectory (path : String) (t t' : FileTree) : Prop :=
  ∃ q, Path.IsAbove q path ∧ t.find? (Path.place q) = none ∧
    t' = t.put (Path.place q) .directory Entry.directory_ne_file

/-- A directory that is made is one above the path, and nothing else is changed. -/
theorem MakesDirectory.changes (h : MakesDirectory path t t') :
    ∃ q, Path.IsAbove q path ∧ t.find? (Path.place q) = none ∧
      t'.find? (Path.place q) = some .directory ∧ ChangesOnly (· = Path.place q) t t' := by
  obtain ⟨q, hq, hf, rfl⟩ := h
  exact ⟨q, hq, hf, by rw [find?_put hf, if_pos rfl], .put hf⟩

/-- What is above one that is above a path is above the path. -/
theorem MakesDirectory.of_above {q : String} (hq : Path.IsAbove q path)
    (h : MakesDirectory q t t') : MakesDirectory path t t' := by
  obtain ⟨q', hq', hmade⟩ := h
  exact ⟨q', hq.trans hq', hmade⟩

/-- To have a directory, those above it are made as far as they are missing. -/
theorem ensureDirectory_makes (path : String) (t : FileTree) :
    Relation.ReflTransGen (MakesDirectory path) t (finalState (ensureDirectory path) t) := by
  obtain ⟨target, hr, hf, h⟩ | ⟨-, h⟩ | ⟨f, -, h⟩ := ensureDirectory_cases path t
  · rw [finalState_of_ok h]
    refine .single ⟨path, .refl, ?_, ?_⟩
    · rwa [← resolve_place hr]
    · simp only [resolve_place hr]
  · rw [finalState_of_ok h]
  · rw [finalState_of_error h]

/-- What is kept by making a directory at a path or above it is kept by making all of them. -/
theorem createDirectoriesUp_induct {P : FileTree → Prop}
    (kept : ∀ q t, Path.IsAbove q path → P t → P (finalState (ensureDirectory q) t))
    (steps : Nat) (h : P t) : P (finalState (createDirectoriesUp steps path) t) := by
  induction steps generalizing path t with
  | zero =>
    rcases createDirectoriesUp_cases 0 path t with ⟨-, he⟩ | he | ⟨rest, -, -, hzero, -⟩
    · rwa [finalState_of_ok he]
    · rw [finalState_congr he]
      exact kept path t .refl h
    · cases hzero
  | succ steps ih =>
    rcases createDirectoriesUp_cases (steps + 1) path t with ⟨-, he⟩ | he |
      ⟨rest, parent, t₁, hrest, hparent, hfault, he⟩
    · rwa [finalState_of_ok he]
    · rw [finalState_congr he]
      exact kept path t .refl h
    · -- after the directories above it, the directory is tried once more
      obtain rfl : steps = rest := Nat.succ.inj hrest
      have htried := kept path t .refl h
      rw [finalState_of_error hfault] at htried
      have hup := ih (fun q t hq => kept q t (hq.head hparent)) htried
      rw [finalState_congr he]
      exact finalState_bind_induct hup fun _ t₂ _ => kept path t₂ .refl

/-- What is kept by each directory above a path is kept by all of them. -/
theorem createDirectories_induct {P : FileTree → Prop}
    (kept : ∀ q t, Path.IsAbove q path → P t → P (finalState (ensureDirectory q) t)) (h : P t) :
    P (finalState (createDirectories path) t) :=
  createDirectoriesUp_induct kept path.length h

/-- Making a directory and those above it makes one after the other. -/
theorem createDirectories_makes (path : String) (t : FileTree) :
    Relation.ReflTransGen (MakesDirectory path) t (finalState (createDirectories path) t) :=
  createDirectories_induct
    (fun q t hq h => h.trans (Relation.ReflTransGen.mono (fun _ _ h => h.of_above hq) _ _
      (ensureDirectory_makes q t))) .refl

/-- Making directories adds to the files only. -/
theorem createDirectories_retains (X : Place → Prop) (path : String) (t : FileTree) :
    Retains X t (finalState (createDirectories path) t) := by
  have hmakes := createDirectories_makes path t
  generalize finalState (createDirectories path) t = t' at hmakes
  induction hmakes with
  | refl => exact .refl X t
  | tail _ hmake ih =>
    obtain ⟨q, -, hf, -, hc⟩ := hmake.changes
    exact ih.trans (hc.mono (by rintro p rfl; exact .inl hf))

/-- A directory that was made is there. -/
theorem createDirectories_isDirectory (hn : Path.isPlainName name = true)
    (h : createDirectories (Path.join dir name) t = .ok () t') :
    t'.isDirectory (Path.join dir name) = true := by
  rcases createDirectoriesUp_ok h with hp | ⟨t₁, he⟩
  · rw [Path.isEmpty_join dir hn] at hp
    cases hp
  · -- the last of them was made, or it was there, or it was a fault
    obtain ⟨target, hr, hf, h'⟩ | ⟨hd, h'⟩ | ⟨f, -, h'⟩ :=
      ensureDirectory_cases (Path.join dir name) t₁
    · rw [he] at h'
      cases h'
      have hreach := (reaches_of_resolve_join hn hr).1
      have hch : ChangesOnly (· = target.place) t₁
          (t₁.put target.place .directory (by simp)) := .put hf
      refine isDirectory_iff.2 ⟨target, ?_, by rw [find?_put hf, if_pos rfl]⟩
      rw [resolve_join_congr hn hreach (hch.reaches hreach), hr]
    · rw [he] at h'
      cases h'
      exact hd
    · rw [he] at h'
      cases h'

/-- A directory that is there can be made again. -/
theorem createDirectories_made (hd : t.isDirectory path = true) :
    createDirectories path t = .ok () t := by
  have hensure : ensureDirectory path t = .ok () t := by
    obtain ⟨target, hr, hf⟩ := isDirectory_iff.1 hd
    -- a place that holds a directory is not free
    obtain ⟨target', hr', hf', -⟩ | ⟨-, h⟩ | ⟨f, h, h'⟩ := ensureDirectory_cases path t
    · cases hr.symm.trans hr'
      cases hf.symm.trans hf'
    · exact h
    · rw [ensureDirectory, h]
      exact if_pos hd
  rcases createDirectoriesUp_cases path.length path t with ⟨-, h⟩ | h | ⟨_, _, _, -, -, he, -⟩
  · exact h
  · exact h.trans hensure
  · cases hensure.symm.trans he

end Files

end Deployment
