import Deployment.Proofs.Storage.Retention
import Deployment.Proofs.Storage.Writing

/-! # Files that are moved

A writer knows its file by number, whatever becomes of the place where it was opened. So it matters
where the file of a number can turn up: nothing but renaming brings a file to another place, and a
file that is made has a number that none had before.

* **`FileTree.MovesOnly`** — no file was moved but from some places.
* **`Files.create_moves`** and the others — what each change moves.
* **`Writer.Housed`** — the file of a writer stands at one place, if it stands anywhere. -/

namespace Deployment

open Stateful FileTree

namespace FileTree

variable {t t' t'' : FileTree} {R R' : Place → Prop}

/-- A file that there was stands where it stood, or was moved from one of some places. -/
structure MovesOnly (R : Place → Prop) (t t' : FileTree) : Prop where
  size : t.contents.size ≤ t'.contents.size
  source : ∀ p n, n < t.contents.size → t'.find? p = some (.file n) →
    t.find? p = some (.file n) ∨ ∃ q, R q ∧ t.find? q = some (.file n)

namespace MovesOnly

/-- Where nothing is done, nothing is moved. -/
theorem refl (R : Place → Prop) (t : FileTree) : MovesOnly R t t :=
  ⟨Nat.le_refl _, fun _ _ _ h => .inl h⟩

/-- Two changes that move only to some places do so together. -/
theorem trans (h : MovesOnly R t t') (h' : MovesOnly R t' t'') : MovesOnly R t t'' where
  size := Nat.le_trans h.size h'.size
  source p n hn hp := by
    rcases h'.source p n (Nat.lt_of_lt_of_le hn h.size) hp with hp | ⟨q, hq, hf⟩
    · exact h.source p n hn hp
    · -- what was moved last stood at its source before, or came to it from another
      exact .inr ((h.source q n hn hf).elim (fun hf => ⟨q, hq, hf⟩) id)

/-- What moves only to some places moves only to more of them. -/
theorem mono (hR : ∀ p, R p → R' p) (h : MovesOnly R t t') : MovesOnly R' t t' where
  size := h.size
  source p n hn hp := (h.source p n hn hp).imp_right fun ⟨q, hq, hf⟩ => ⟨q, hR q hq, hf⟩

/-- Writing moves nothing. -/
theorem setContent (R : Place → Prop) (t : FileTree) (n : Nat) (bytes : List UInt8) :
    MovesOnly R t (t.setContent n bytes) :=
  ⟨Nat.le_of_eq (Array.size_setIfInBounds ..).symm, fun _ _ _ h => .inl h⟩

/-- A directory put where nothing was moves no file. -/
theorem put (R : Place → Prop) {p : Place} (hp : t.find? p = none) :
    MovesOnly R t (t.put p .directory (by simp)) where
  size := Nat.le_refl _
  source q n _ hq := by
    rw [find?_put hp] at hq
    split at hq
    · cases hq
    · exact .inl hq

/-- A file that is made is none that there was. -/
theorem putFile (R : Place → Prop) {p : Place} (hp : t.find? p = none) :
    MovesOnly R t (t.putFile p) where
  size := by
    show t.contents.size ≤ (t.contents.push []).size
    rw [Array.size_push]
    exact Nat.le_succ _
  source q n hn hq := by
    rw [find?_putFile hp] at hq
    split at hq
    · cases hq
      exact absurd hn (Nat.lt_irrefl _)
    · exact .inl hq

end MovesOnly

end FileTree

/-! ## What each change moves -/

namespace Files

variable {t : FileTree} {R : Place → Prop}

/-- A file that is made, or emptied, moves nothing. -/
theorem create_moves (R : Place → Prop) (path : String) (t : FileTree) :
    MovesOnly R t (finalState (create path) t) := by
  cases h : create path t with
  | error f t' =>
    rw [finalState_of_error h, create_error h]
    exact .refl R t
  | ok sink t' =>
    rw [finalState_of_ok h]
    obtain ⟨target, -, -, ⟨n, -, -, rfl⟩ | ⟨hf, -, rfl⟩ | ⟨-, -, rfl⟩⟩ := create_ok h
    · exact .setContent R t n []
    · exact .putFile R hf
    · exact .refl R t'

/-- Bytes that are written move nothing. -/
theorem writeAt_moves (R : Place → Prop) (sink : Sink) (offset : Nat) (bytes : List UInt8)
    (t : FileTree) : MovesOnly R t (finalState (writeAt sink offset bytes) t) := by
  cases sink with
  | file n => exact .setContent R t n _
  | fullDevice =>
    rw [writeAt_fullDevice]
    exact .refl R t

/-- A file that is written moves nothing. -/
theorem write_moves (R : Place → Prop) (path : String) (bytes : List UInt8) (t : FileTree) :
    MovesOnly R t (finalState (write path bytes) t) :=
  finalState_bind_induct (create_moves R path t) fun sink t' _ h =>
    h.trans (writeAt_moves R sink 0 bytes t')

/-- What is taken away is moved nowhere. -/
theorem remove_moves (R : Place → Prop) (path : String) (t : FileTree) :
    MovesOnly R t (finalState (remove path) t) := by
  rcases remove_cases path t with h | ⟨hd, h⟩
  · rw [h]
    exact .refl R t
  · rw [h]
    refine ⟨Nat.le_refl _, fun p n _ hp => ?_⟩
    rw [find?_restrict_ne hd] at hp
    split at hp
    · cases hp
    · exact .inl hp

/-- Renaming moves a file from its old name. -/
theorem rename_moves {source : String} (hR : R (Path.place source)) (target : String)
    (t : FileTree) : MovesOnly R t (finalState (rename source target) t) := by
  rcases rename_cases source target t with ⟨f, h⟩ | ⟨-, h⟩ |
    ⟨e, src, dst, -, -, hf, he, hdst, h⟩
  · rw [finalState_of_error h]
    exact .refl R t
  · rw [finalState_of_ok h]
    exact .refl R t
  · rw [finalState_of_ok h]
    refine ⟨?_, fun p n _ hp => ?_⟩
    · unfold move
      split <;> exact Nat.le_refl _
    · -- a file is found at the target, and it came from the source
      rw [find?_move hf he hdst] at hp
      split at hp
      · exact .inr ⟨_, hR, hf.trans hp⟩
      · split at hp
        · cases hp
        · exact .inl hp

/-- Directories that are made move nothing. -/
theorem createDirectories_moves (R : Place → Prop) (path : String) (t : FileTree) :
    MovesOnly R t (finalState (createDirectories path) t) := by
  have hmakes := createDirectories_makes path t
  generalize finalState (createDirectories path) t = t' at hmakes
  induction hmakes with
  | refl => exact .refl R t
  | tail _ hmake ih =>
    obtain ⟨q, -, hf, rfl⟩ := hmake
    exact ih.trans (.put R hf)

end Files

/-! ## Writers -/

namespace Writer

variable {t t' : FileTree} {p : Place} {w w' : Writer} {bytes given : List UInt8}

/-- The file of a writer is one that there is, and stands at one place if it stands anywhere. -/
def Housed (w : Writer) (t : FileTree) (p : Place) : Prop :=
  ∀ n, w.sink = .file n →
    n < t.contents.size ∧ ∀ q, t.find? q = some (.file n) → q = p

/-- A writer that holds what was given to it writes to no other place. -/
theorem Holds.housed (h : w.Holds t p given) : w.Housed t p := by
  intro n hs
  obtain ⟨done, hr, -⟩ := h
  cases hr with
  | file k sink there =>
    cases sink.symm.trans hs
    exact ⟨lt_size_of_find? there, fun q hq => place_unique hq there⟩
  | device sink => cases sink.symm.trans hs

/-- The file of a writer stays where it is unless it is moved from there. -/
theorem Housed.keep {R : Place → Prop} (hw : w.Housed t p) (h : MovesOnly R t t') (hR : ¬ R p) :
    w.Housed t' p := by
  intro n hs
  obtain ⟨hn, hp⟩ := hw n hs
  refine ⟨Nat.lt_of_lt_of_le hn h.size, fun q hq => ?_⟩
  rcases h.source q n hn hq with hq | ⟨q', hq', hf⟩
  · exact hp q hq
  · exact absurd (hp q' hf ▸ hq') hR

/-- Writing moves no file. -/
theorem Touches.moves (R : Place → Prop) (h : w.Touches t t') : MovesOnly R t t' := by
  unfold Touches at h
  split at h
  next n _ =>
    rw [show t' = t.setContent n (t'.content n) from h]
    exact .setContent R t n _
  next =>
    rw [h]
    exact .refl R t

/-- A writer that takes bytes goes on to write to its file. -/
theorem take_sink (h : w.take bytes t = .ok w' t') : w'.sink = w.sink := by
  induction hl : bytes.length using Nat.strongRecOn generalizing w bytes t with
  | ind len ih =>
    rw [take] at h
    split at h
    · cases h
      rfl
    next hc =>
      obtain ⟨w₁, t₁, hw, h⟩ := run_bind_ok.1 h
      refine (ih _ ?_ h rfl).trans (handOver_ok hw).1
      simp only [List.length_drop, capacity, maxPiece] at *
      omega

/-- A writer keeps its file. -/
theorem append_sink (h : w.append bytes t = .ok w' t') : w'.sink = w.sink := by
  rw [append_eq] at h
  split at h
  · obtain ⟨w₁, t₁, hw, h⟩ := run_bind_ok.1 h
    exact (take_sink h).trans (flush_sink hw)
  · exact take_sink h

/-- An archive that is opened moves nothing. -/
theorem open_moves (R : Place → Prop) (path : String) (t : FileTree) :
    MovesOnly R t (finalState (Writer.open path) t) :=
  finalState_bind_induct (Files.create_moves R path t) fun _ _ _ h => h

/-- A writer that was just opened has its file where its path leads. -/
theorem open_housed {path : String} (h : Writer.open path t = .ok w t') :
    w.Housed t' (Path.place path) := (open_holds h).housed

/-- A writer that appends stays at its place. -/
theorem append_housed (hw : w.Housed t p) (h : w.append bytes t = .ok w' t') :
    w'.Housed t' p := by
  have ht := append_touches w bytes t
  rw [finalState_of_ok h] at ht
  have hkeep := hw.keep (ht.moves fun _ => False) id
  intro n hs
  exact hkeep n ((append_sink h).symm.trans hs)

end Writer

end Deployment
