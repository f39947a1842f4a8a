import Deployment.Proofs.Session.Durability

/-! # What stays among the files of an account

Whatever is done to the files for an account is done right in the directory of the account: to its
archives, to its record and to the file beside the record. Elsewhere at most directories are made,
on the way to that one.

* **`Settings.Owns`** — the places of the files of an account.
* **`Settings.OnWay`** — the places of the directories on the way to them.
* **`Confined`** — what was done to the files was done among those of an account.
* **`Confined.read`**, **`Confined.read_eq`** — the files of every other account read as before.
* **`Sited.save_confined`** and the others — what each change of files is confined to. -/

namespace Deployment

open Stateful FileTree

/-! ## Places -/

namespace Settings

variable {s : Settings} {a b : Account} {p : Place}

/-- The places of the files of an account: right in its directory, which has one plain name below
the directory of all accounts. -/
def Owns (s : Settings) (a : Account) (p : Place) : Prop :=
  Path.isPlainName a.name = true ∧
    ∃ name, Path.isPlainName name = true ∧ p = Path.place s.archiveDir ++ [a.name, name]

/-- The places of the directory of an account and of those above it. -/
def OnWay (s : Settings) (a : Account) (p : Place) : Prop :=
  Path.isPlainName a.name = true ∧
    ∃ path, Path.IsAbove path (s.accountDirectory a) ∧ p = Path.place path

/-- What an account owns belongs to it. -/
theorem Owns.belongs (h : s.Owns a p) : s.Belongs a p := by
  obtain ⟨-, name, -, rfl⟩ := h
  exact .inr ⟨name, rfl⟩

/-- An account owns what has a plain name in its directory. -/
theorem owns_join (s : Settings) (hv : a.isValid = true) {name : String}
    (hn : Path.isPlainName name = true) :
    s.Owns a (Path.place (Path.join (s.accountDirectory a) name)) :=
  ⟨Account.isPlainName_of_isValid hv, name, hn, s.place_join hv hn⟩

/-- Different accounts, or different names, give different paths. -/
theorem join_unique (s : Settings) (ha : a.isValid = true) (hb : b.isValid = true)
    {name name' : String} (hn : Path.isPlainName name = true)
    (hn' : Path.isPlainName name' = true)
    (h : Path.place (Path.join (s.accountDirectory a) name) =
      Path.place (Path.join (s.accountDirectory b) name')) : a = b ∧ name = name' := by
  have hown := (s.owns_join ha hn).belongs
  rw [h] at hown
  refine ⟨belongs_unique hown (s.owns_join hb hn').belongs, ?_⟩
  rw [s.place_join ha hn, s.place_join hb hn'] at h
  exact (List.cons.inj (List.cons.inj (List.append_cancel_left h)).2).1

end Settings

/-- An archive is a file of its account. -/
theorem Upload.Placed.owns {s : Settings} {u : Upload} (hp : u.Placed s) :
    s.Owns u.account (Path.place u.archive) := by
  obtain ⟨name, hn, -, harch⟩ := hp.archive
  rw [harch]
  exact s.owns_join hp.valid hn

/-! ## Confinement -/

/-- What was done to the files was done among those of an account: every place that is none of
theirs is as it was, but for directories that were made on the way to that of the account. If the
directory of all accounts was there, then no other was made. -/
structure Confined (s : Settings) (a : Account) (t t' : FileTree) : Prop where
  kept : ∀ p, ¬ s.Owns a p →
    Same t t' p ∨ s.OnWay a p ∧ t.find? p = none ∧ t'.find? p = some .directory
  directory : ∀ p, t.find? p = some .directory → t'.find? p = some .directory
  near : t.Reaches s.archiveDir → ∀ p, ¬ s.Belongs a p → Same t t' p

namespace Confined

variable {s : Settings} {a b : Account} {t t' t'' : FileTree} {name : String}

/-- Where nothing is done, nothing is touched. -/
theorem refl (s : Settings) (a : Account) (t : FileTree) : Confined s a t t :=
  ⟨fun p _ => .inl (.refl t p), fun _ h => h, fun _ p _ => .refl t p⟩

/-- What was there is as it was, but for the files of the account. -/
theorem retains (h : Confined s a t t') : Retains (s.Owns a) t t' where
  same p hp := by
    rw [not_or] at hp
    rcases h.kept p hp.2 with hsame | ⟨-, hnone, -⟩
    · exact hsame
    · exact absurd hnone hp.1
  directory := h.directory

/-- A directory that can be entered still can. -/
theorem reaches (h : Confined s a t t') {dir : String} (hd : t.Reaches dir) : t'.Reaches dir :=
  ChangesOnly.reaches h.retains hd

/-- What is confined and confined again is confined. -/
theorem trans (h : Confined s a t t') (h' : Confined s a t' t'') : Confined s a t t'' where
  kept p hp := by
    rcases h.kept p hp with hsame | ⟨hway, hnone, hmade⟩
    · rcases h'.kept p hp with hsame' | ⟨hway, hnone, hmade⟩
      · exact .inl (hsame.trans hsame')
      · exact .inr ⟨hway, hsame.find.symm.trans hnone, hmade⟩
    · exact .inr ⟨hway, hnone, h'.directory p hmade⟩
  directory p hp := h'.directory p (h.directory p hp)
  near hr p hp := (h.near hr p hp).trans (h'.near (h.reaches hr) p hp)

/-- A change of nothing but files of the account. -/
theorem of_changes (h : ChangesOnly (s.Owns a) t t') : Confined s a t t' :=
  ⟨fun p hp => .inl (h.same p hp), h.directory, fun _ p hp => h.same p fun ho => hp ho.belongs⟩

/-- A file of another account that could be read reads as before. -/
theorem read {bytes : List UInt8} (h : Confined s a t t') (hab : b ≠ a) (hv : b.isValid = true)
    (hn : Path.isPlainName name = true)
    (hr : t.read (Path.join (s.accountDirectory b) name) = .ok bytes) :
    t'.read (Path.join (s.accountDirectory b) name) = .ok bytes := by
  refine h.retains.read hn ?_ hr
  intro ho
  exact hab (Settings.belongs_unique (s.owns_join hv hn).belongs ho.belongs)

/-- If the directory of all accounts was there, then reading a file of another account also fails
as before. -/
theorem read_eq (h : Confined s a t t') (hab : b ≠ a) (hv : b.isValid = true)
    (hn : Path.isPlainName name = true) (hr : t.Reaches s.archiveDir) :
    t'.read (Path.join (s.accountDirectory b) name) =
      t.read (Path.join (s.accountDirectory b) name) := by
  have hsame : ∀ p, s.Belongs b p → Same t t' p :=
    fun p hp => h.near hr p fun ha => hab (Settings.belongs_unique hp ha)
  exact read_below_congr (Account.isPlainName_of_isValid hv) hn hr (h.reaches hr)
    (hsame _ (.inl rfl)).find (hsame _ (.inr ⟨name, rfl⟩))

/-- Making the directory of an account makes it and those above it. -/
theorem createDirectories (s : Settings) (hv : a.isValid = true) (t : FileTree) :
    Confined s a t (finalState (Files.createDirectories (s.accountDirectory a)) t) where
  kept p _ := by
    have hmakes := Files.createDirectories_makes (s.accountDirectory a) t
    generalize finalState (Files.createDirectories (s.accountDirectory a)) t = t' at hmakes
    induction hmakes with
    | refl => exact .inl (.refl t p)
    | @tail t₁ t₂ _ hmake ih =>
      obtain ⟨q, hq, hnone, hmade, hc⟩ := hmake.changes
      by_cases hp : p = Path.place q
      · -- nothing was there until now
        subst hp
        refine .inr ⟨⟨Account.isPlainName_of_isValid hv, q, hq, rfl⟩, ?_, hmade⟩
        rcases ih with hsame | ⟨-, hnone', -⟩
        · exact hsame.find.symm.trans hnone
        · exact hnone'
      · have hlast := hc.same p hp
        rcases ih with hsame | ⟨hway, hnone', hmade'⟩
        · exact .inl (hsame.trans hlast)
        · exact .inr ⟨hway, hnone', hlast.find.trans hmade'⟩
  directory := (Files.createDirectories_retains (fun _ => False) _ t).directory
  near hr p hp :=
    (Files.createDirectories_changes (Account.isPlainName_of_isValid hv) hr).same p
      fun h => hp (.inl h)

end Confined

/-! ## What is done for an account -/

namespace Upload.Placed

variable {s : Settings} {u : Upload} {t t' : FileTree}

/-- What is done to an archive is done among the files of its account. -/
theorem confined (hp : u.Placed s) (h : ChangesOnly (· = Path.place u.archive) t t') :
    Confined s u.account t t' :=
  .of_changes (h.mono (by rintro p rfl; exact hp.owns))

end Upload.Placed

namespace Sited

variable {s : Settings} {m : SessionManager} {r : SessionRecord}

/-- Saving a record changes files of its account. -/
theorem save_confined (hs : Sited s m) (hn : Path.isPlainName s.sessionFile = true)
    (hv : r.account.isValid = true) (t : FileTree) :
    Confined s r.account t (finalState (m.records.save r) t) := by
  have hn' : Path.isPlainName m.records.fileName = true := hs.fileName ▸ hn
  have hdir : m.records.directory r.account = s.accountDirectory r.account := by
    rw [RecordStore.directory, hs.root, Settings.accountDirectory]
  have hfile : s.Owns r.account (Path.place (m.records.file r.account)) := by
    rw [RecordStore.file, hdir]
    exact s.owns_join hv hn'
  have hbeside : s.Owns r.account (Path.place (m.records.beside r.account)) := by
    rw [RecordStore.beside, hdir]
    exact s.owns_join hv (Path.isPlainName_beside hn')
  -- Three steps: the directory, the file beside, and the rename that takes its place.
  refine RecordStore.save_steps (Confined.refl s r.account) .trans hn' ?_ (fun t => ?_)
    fun t => ?_
  · rw [hdir]
    exact .createDirectories s hv t
  · exact .of_changes ((Files.write_changes _ _ t).mono (by rintro p rfl; exact hbeside))
  · refine .of_changes ((Files.rename_changes _ _ t).mono ?_)
    rintro p (rfl | rfl)
    · exact hbeside
    · exact hfile

/-- Saving a record moves nothing but the file beside it. -/
theorem save_moves (hs : Sited s m) (hn : Path.isPlainName s.sessionFile = true)
    (hv : r.account.isValid = true) (t : FileTree) :
    MovesOnly (s.Recorded r.account) t (finalState (m.records.save r) t) := by
  have hn' : Path.isPlainName m.records.fileName = true := hs.fileName ▸ hn
  refine (RecordStore.save_moves hn' r t).mono ?_
  rintro p rfl
  rw [RecordStore.place_beside _ hv hn', hs.root, hs.fileName]
  exact .inl rfl

/-- No archive lies where a record is, or where one is written to first. -/
theorem archive_apart (hs : Sited s m) (hn : Path.isPlainName s.sessionFile = true) {u : Upload}
    (hp : u.Placed s) {b : Account} {path : String} (h : m.records.path b = .ok path) :
    Path.place u.archive ≠ Path.place path ∧
      Path.place u.archive ≠ Path.place (m.records.pathBeside path) := by
  have hn' : Path.isPlainName m.records.fileName = true := hs.fileName ▸ hn
  obtain ⟨hv, rfl⟩ := RecordStore.path_ok h
  have hnot := hp.not_recorded b
  rw [RecordStore.pathBeside_file _ hv hn', RecordStore.place_file _ hv hn',
    RecordStore.place_beside _ hv hn', hs.root, hs.fileName]
  exact ⟨fun he => hnot (.inr he), fun he => hnot (.inl he)⟩

end Sited

end Deployment
