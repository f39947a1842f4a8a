import Deployment.Proofs.Record.Saving
import Deployment.Proofs.Session.Correspondence
import Deployment.Proofs.Storage.Writing

/-! # What belongs to an account

Every account has a directory of its own, and whatever is done for one account touches only that.

* **`Settings.Belongs`** — the places that belong to an account.
* **`Upload.Placed`** — the archive of an upload lies in the directory of its account.
* **`Upload.Housed`** — the file that parts of it are written to stands there or nowhere.
* **`Upload.opening`** — the first half of writing a part; **`Upload.write_given`** — what is
  written.
* **`Sited`** — a manager keeps to its settings.
* **`Event.Concerns`**, **`Effect.spares`** — an event spares every account that it does not
  concern.
* **`Origin`**, **`Effect.origin`** — how the upload of an account that is concerned came about. -/

namespace Deployment

open Stateful FileTree SessionManager

namespace Settings

variable {s : Settings} {a b : Account} {p : Place}

/-- The places that belong to an account: its directory, and what is right in it. -/
def Belongs (s : Settings) (a : Account) (p : Place) : Prop :=
  p = Path.place s.archiveDir ++ [a.name] ∨
    ∃ name, p = Path.place s.archiveDir ++ [a.name, name]

/-- A place belongs to one account. -/
theorem belongs_unique (h : s.Belongs a p) (h' : s.Belongs b p) : a = b := by
  have hname : a.name = b.name := by
    rcases h with rfl | ⟨x, rfl⟩ <;> rcases h' with h' | ⟨y, h'⟩ <;>
      have h' := List.append_cancel_left h' <;> simp_all
  cases a
  cases b
  exact congrArg Account.mk hname

/-- The name of the file of records is plain in settings that can be used. -/
theorem isPlainName_of_validate (h : s.validate = .ok ()) :
    Path.isPlainName s.sessionFile = true := by
  cases hn : Path.isPlainName s.sessionFile with
  | true => rfl
  | false =>
    simp only [validate, hn, Bool.not_false, if_true, Failing.throw_eq] at h
    split at h
    · cases h
    · split at h
      · cases h
      · split at h <;> cases h

/-- The place of a file in the directory of an account. -/
theorem place_join (s : Settings) (hv : a.isValid = true) {name : String}
    (hn : Path.isPlainName name = true) :
    Path.place (Path.join (s.accountDirectory a) name) =
      Path.place s.archiveDir ++ [a.name, name] := by
  rw [Path.place_join _ hn, accountDirectory,
    Path.place_join _ (Account.isPlainName_of_isValid hv), List.append_assoc]
  rfl

/-- Whoever comes to the directory of an account has come to the directory of all accounts. -/
theorem reaches_archiveDir {t : FileTree} (hv : a.isValid = true)
    (h : t.Reaches (s.accountDirectory a)) : t.Reaches s.archiveDir := by
  have hn := Account.isPlainName_of_isValid hv
  rw [Reaches, accountDirectory, Path.names_join _ hn, Path.origin, Path.isAbsolute_join _ hn,
    List.foldlM_append] at h
  cases hr : (Path.names s.archiveDir).foldlM t.enter (Path.origin s.archiveDir) with
  | error f => rw [← Path.origin, hr] at h; cases h
  | ok p => exact reaches_of_enterAll hr

end Settings

/-- The archive of an upload lies in the directory of its account, under a name of its own. -/
structure Upload.Placed (s : Settings) (u : Upload) : Prop where
  valid : u.account.isValid = true
  archive : ∃ name, Path.isPlainName name = true ∧ s.isReserved name = false ∧
    u.archive = Path.join (s.accountDirectory u.account) name

/-- A manager keeps to its settings. -/
structure Sited (s : Settings) (m : SessionManager) : Prop where
  settings : m.settings = s
  root : m.records.root = s.archiveDir
  fileName : m.records.fileName = s.sessionFile
  placed : ∀ (n : Nat) (u : Upload), m.uploads[n]? = some u → u.Placed s

namespace Sited

variable {s : Settings} {m m' : SessionManager}

/-- At first there is no upload to have a place. -/
theorem start (s : Settings) (t : FileTree) (md : Metadata) :
    Sited s (SessionManager.start s t md) := by
  refine ⟨rfl, rfl, rfl, fun n u hu => ?_⟩
  simp [SessionManager.start] at hu

/-- An upload that becomes another of the same account and archive stays in its place. -/
theorem put (hs : Sited s m) {n : Nat} {u v : Upload} (hu : m.uploads[n]? = some u)
    (ha : v.account = u.account) (hp : v.archive = u.archive) :
    ∀ (k : Nat) (w : Upload), (m.put n v).uploads[k]? = some w → w.Placed s := by
  obtain ⟨hv, h⟩ := hs.placed n u hu
  exact forall_put hs.placed n ⟨ha ▸ hv, by rw [ha, hp]; exact h⟩

/-- Every event keeps to the settings. -/
theorem step {h : List Note} {e : Event} {notes : List Note} (hs : Sited s m) (hl : Linked h m)
    (he : Effect m e m' notes) : Sited s m' := by
  have ⟨hset, hroot, hfile, hplaced⟩ := hs
  cases he with
  | nothing => exact hs
  | worked => exact ⟨hset, hroot, hfile, hplaced⟩
  | files => exact ⟨hset, hroot, hfile, hplaced⟩
  | outage => exact ⟨hset, hroot, hfile, hplaced⟩
  | registered valid plain free idle new made =>
    refine ⟨hset, hroot, hfile, forall_begin hplaced ?_⟩
    rw [new]
    exact ⟨valid, _, plain, hset ▸ free, by rw [← hset]; rfl⟩
  | unprepared valid plain free idle new made =>
    refine ⟨hset, hroot, hfile, forall_begin hplaced ?_⟩
    rw [new]
    exact ⟨valid, _, plain, hset ▸ free, by rw [← hset]; rfl⟩
  | accepted current => exact ⟨hset, hroot, hfile, hs.put current.known rfl rfl⟩
  | discarded current => exact ⟨hset, hroot, hfile, hs.put current.known rfl rfl⟩
  | submitted current => exact ⟨hset, hroot, hfile, hs.put current.known rfl rfl⟩
  | failed current => exact ⟨hset, hroot, hfile, hs.put current.known rfl rfl⟩
  | recorded pending ended current => exact ⟨hset, hroot, hfile, hs.put current.known rfl rfl⟩
  | recordedNowhere pending ended nobody => exact (hl.not_nowhere pending nobody).elim

end Sited

/-! ## The archive of an upload -/

namespace Upload

variable {u : Upload} {t t' : FileTree} {given bytes : List UInt8} {w : Writer}

/-- What was given to the archive of an upload so far. Its path leads somewhere once the archive
was opened. -/
def Given (u : Upload) (t : FileTree) (given : List UInt8) : Prop :=
  match u.writer with
  | none => given = []
  | some w => w.Holds t (Path.place u.archive) given ∧ ∃ target, t.resolve u.archive = .ok target

/-- The file of the archive of an upload, if it is open, stands at the place of the archive or
nowhere. -/
def Housed (u : Upload) (t : FileTree) : Prop :=
  ∀ w, u.writer = some w → w.Housed t (Path.place u.archive)

/-- A writer that is not open is at its place. -/
theorem housed_of_none (hw : u.writer = none) (t : FileTree) : u.Housed t :=
  fun _ h => nomatch hw.symm.trans h

/-- What was given to an archive is in its file, which stands at its place. -/
theorem Given.housed (hg : u.Given t given) : u.Housed t := by
  intro w hw
  rw [Given, hw] at hg
  exact hg.1.housed

/-- The file of an archive stays where it is, unless it is moved from there. -/
theorem Housed.keep {R : Place → Prop} (hu : u.Housed t) (h : MovesOnly R t t')
    (hR : ¬ R (Path.place u.archive)) : u.Housed t' :=
  fun w hw => (hu w hw).keep h hR

/-- The writer that the next part is written with: the first part opens it. -/
def opening (u : Upload) : Files Writer :=
  match u.writer with
  | some w => pure w
  | none => Writer.open u.archive

/-- A part is written once the archive is open. -/
theorem write_eq (u : Upload) (bytes : List UInt8) :
    u.write bytes = u.opening >>= fun w => w.append bytes := by
  unfold write opening
  cases u.writer <;> rfl

/-- A part is written where the writer for it is there and takes it. -/
theorem write_eq_ok (h : u.write bytes t = .ok w t') :
    ∃ w₀ t₁, u.opening t = .ok w₀ t₁ ∧ w₀.append bytes t₁ = .ok w t' := by
  rw [write_eq] at h
  exact run_bind_ok.1 h

/-- An archive that is open is not opened again. -/
theorem opening_of_writer (hw : u.writer = some w) : u.opening = pure w := by
  rw [opening, hw]

/-- An archive that is not open is opened under its path. -/
theorem opening_of_none (hw : u.writer = none) : u.opening = Writer.open u.archive := by
  rw [opening, hw]

/-- A part goes to the writer that is open. -/
theorem write_of_writer (hw : u.writer = some w) (bytes : List UInt8) (t : FileTree) :
    u.write bytes t = w.append bytes t := by
  rw [write_eq, opening_of_writer hw]
  rfl

/-- Opening the archive touches its place. -/
theorem opening_changes (u : Upload) (t : FileTree) :
    ChangesOnly (· = Path.place u.archive) t (finalState u.opening t) := by
  cases hw : u.writer with
  | some w =>
    rw [opening_of_writer hw]
    exact .refl _ t
  | none =>
    rw [opening_of_none hw]
    exact Writer.open_changes u.archive t

/-- Opening the archive moves no file. -/
theorem opening_moves (R : Place → Prop) (u : Upload) (t : FileTree) :
    MovesOnly R t (finalState u.opening t) := by
  cases hw : u.writer with
  | some w =>
    rw [opening_of_writer hw]
    exact .refl R t
  | none =>
    rw [opening_of_none hw]
    exact Writer.open_moves R u.archive t

/-- The file of the writer stands at the place of the archive or nowhere. -/
theorem opening_housed (hu : u.Housed t) (h : u.opening t = .ok w t') :
    w.Housed t' (Path.place u.archive) := by
  cases hw : u.writer with
  | some w₀ =>
    rw [opening_of_writer hw] at h
    cases h
    exact hu w hw
  | none =>
    rw [opening_of_none hw] at h
    exact Writer.open_housed h

/-- The writer holds what was given to the archive, and the path of that leads somewhere. -/
theorem opening_given (hg : u.Given t given) (h : u.opening t = .ok w t') :
    w.Holds t' (Path.place u.archive) given ∧ ∃ target, t.resolve u.archive = .ok target := by
  cases hw : u.writer with
  | some w₀ =>
    rw [opening_of_writer hw] at h
    cases h
    rwa [Given, hw] at hg
  | none =>
    rw [opening_of_none hw] at h
    obtain rfl : given = [] := by rwa [Given, hw] at hg
    exact ⟨Writer.open_holds h, Writer.open_resolves h⟩

/-- Appending to a writer touches the place of its file. -/
theorem append_changes {p : Place} (hh : w.Housed t p) (bytes : List UInt8) :
    ChangesOnly (· = p) t (finalState (w.append bytes) t) :=
  (Writer.append_touches w bytes t).changesOnly fun n hs => (hh n hs).2

/-- Writing a part touches the place of the archive. -/
theorem write_changes (hu : u.Housed t) (bytes : List UInt8) :
    ChangesOnly (· = Path.place u.archive) t (finalState (u.write bytes) t) := by
  rw [write_eq]
  refine finalState_bind_induct (u.opening_changes t) fun w t₁ h hc => ?_
  exact hc.trans (append_changes (opening_housed hu h) bytes)

/-- Where a part was written, that touched the place of the archive. -/
theorem written_changes (hu : u.Housed t) (h : u.write bytes t = .ok w t') :
    ChangesOnly (· = Path.place u.archive) t t' := by
  have hc := write_changes hu bytes
  rwa [finalState_of_ok h] at hc

/-- So did an attempt to write a part that failed, if there was one. -/
theorem unwritten_changes (hu : u.Housed t)
    (h : t' = t ∨ ∃ f, u.write bytes t = .error f t') :
    ChangesOnly (· = Path.place u.archive) t t' := by
  rcases h with rfl | ⟨f, hf⟩
  · exact .refl _ _
  · have hc := write_changes hu bytes
    rwa [finalState_of_error hf] at hc

/-- Writing a part moves no file. -/
theorem write_moves (R : Place → Prop) (u : Upload) (bytes : List UInt8) (t : FileTree) :
    MovesOnly R t (finalState (u.write bytes) t) := by
  rw [write_eq]
  refine finalState_bind_induct (u.opening_moves R t) fun w t₁ _ h => ?_
  exact h.trans ((Writer.append_touches w bytes t₁).moves R)

/-- The file that a part was written to stands at the place of the archive or nowhere. -/
theorem write_housed (hu : u.Housed t) (h : u.write bytes t = .ok w t') :
    (u.receiving w).Housed t' := by
  intro w' hw'
  obtain rfl : w = w' := Option.some.inj hw'
  show w.Housed t' (Path.place u.archive)
  obtain ⟨w₀, t₁, hopen, happend⟩ := write_eq_ok h
  exact Writer.append_housed (opening_housed hu hopen) happend

/-- A part that was written follows what was given before. -/
theorem write_given {s : Settings} (hp : u.Placed s) (ht : t.Reaches (s.accountDirectory u.account))
    (hg : u.Given t given) (h : u.write bytes t = .ok w t') :
    (u.receiving w).Given t' (given ++ bytes) := by
  have hc := written_changes hg.housed h
  obtain ⟨name, hn, -, harch⟩ := hp.archive
  obtain ⟨w₀, t₁, hopen, happend⟩ := write_eq_ok h
  obtain ⟨hh, target, htar⟩ := opening_given hg hopen
  refine ⟨Writer.append_holds hh happend, target, ?_⟩
  show t'.resolve u.archive = .ok target
  rw [harch] at htar ⊢
  rw [resolve_join_congr hn ht (hc.reaches ht), htar]

/-- Closing the archive touches its place. -/
theorem close_changes (hu : u.Housed t) :
    ChangesOnly (· = Path.place u.archive) t (finalState u.close t) := by
  unfold close
  cases hw : u.writer with
  | none => exact .refl _ _
  | some w => exact (Writer.close_touches w t).changesOnly fun n hs => (hu w hw n hs).2

/-- Closing an archive changes nothing but it. -/
theorem closed_changes (hu : u.Housed t) (h : u.close t = .ok () t') :
    ChangesOnly (· = Path.place u.archive) t t' := by
  have hc := close_changes hu
  rwa [finalState_of_ok h] at hc

/-- Closing the archive moves no file. -/
theorem close_moves (R : Place → Prop) (u : Upload) (t : FileTree) :
    MovesOnly R t (finalState u.close t) := by
  unfold close
  cases u.writer with
  | none => exact .refl R t
  | some w => exact (Writer.close_touches w t).moves R

/-- An archive that was closed holds what was given to it. -/
theorem close_read {s : Settings} (hp : u.Placed s)
    (ht : t.Reaches (s.accountDirectory u.account)) (hg : u.Given t given) (hsome : given ≠ [])
    (h : u.close t = .ok () t') : t'.read u.archive = .ok given := by
  have hc := closed_changes hg.housed h
  obtain ⟨name, hn, -, harch⟩ := hp.archive
  -- Without a writer nothing can have been given.
  cases hw : u.writer with
  | none => rw [Given, hw] at hg; exact absurd hg hsome
  | some w =>
    rw [Given, hw] at hg
    obtain ⟨hh, target, htar⟩ := hg
    rw [close, hw] at h
    obtain ⟨n, -, hf, hcontent⟩ := (Writer.close_holds hh h).resolve_right hsome
    rw [harch] at htar
    have htar' : t'.resolve u.archive = .ok target := by
      rw [harch, resolve_join_congr hn ht (hc.reaches ht), htar]
    rw [read_of_resolve htar', resolve_place htar', hf, (reaches_of_resolve_join hn htar).2]
    simp [hcontent]

/-- What was given to an archive is as it was where its place is the same. -/
theorem Given.congr {s : Settings} (hp : u.Placed s)
    (ht : t.Reaches (s.accountDirectory u.account))
    (ht' : t'.Reaches (s.accountDirectory u.account)) (hg : u.Given t given)
    (hs : Same t t' (Path.place u.archive)) : u.Given t' given := by
  obtain ⟨name, hn, -, harch⟩ := hp.archive
  unfold Given at hg ⊢
  cases hw : u.writer with
  | none => rw [hw] at hg; exact hg
  | some w =>
    rw [hw] at hg
    obtain ⟨hh, target, htar⟩ := hg
    refine ⟨hh.congr hs, target, ?_⟩
    rw [harch] at htar ⊢
    rw [resolve_join_congr hn ht ht', htar]

/-- The place of an archive belongs to its account. -/
theorem Placed.belongs {s : Settings} (hp : u.Placed s) :
    s.Belongs u.account (Path.place u.archive) := by
  obtain ⟨hv, name, hn, -, harch⟩ := hp
  rw [harch, s.place_join hv hn]
  exact .inr ⟨name, rfl⟩

/-- The directory of an archive that was opened can be entered. -/
theorem Given.reaches {s : Settings} (hp : u.Placed s) (hg : u.Given t given)
    (hw : u.writer = some w) : t.Reaches (s.accountDirectory u.account) := by
  rw [Given, hw] at hg
  obtain ⟨-, target, htar⟩ := hg
  obtain ⟨name, hn, -, harch⟩ := hp.archive
  rw [harch] at htar
  exact (reaches_of_resolve_join hn htar).1

/-- What was given to an archive is as it was where its place is retained. -/
theorem Given.retained {s : Settings} {X : Place → Prop} (hp : u.Placed s)
    (hg : u.Given t given) (h : Retains X t t') (hX : ¬ X (Path.place u.archive)) :
    u.Given t' given := by
  obtain ⟨name, hn, -, harch⟩ := hp.archive
  cases hw : u.writer with
  | none =>
    rw [Given, hw] at hg ⊢
    exact hg
  | some w =>
    have hreach := hg.reaches hp hw
    rw [Given, hw] at hg ⊢
    obtain ⟨⟨done, hr, hdone⟩, target, htar⟩ := hg
    refine ⟨⟨done, ?_, hdone⟩, target, ?_⟩
    · -- A file under the writer is still the same one; the device has no content to keep.
      cases hr with
      | file n sink there fault offset content =>
        have hsame := h.same (by rw [there]; nofun) hX
        exact .file n sink (hsame.find.trans there) fault offset
          ((hsame.content n there).trans content)
      | device sink nothing => exact .device sink nothing
    · rw [harch] at htar ⊢
      rw [resolve_join_congr hn hreach (ChangesOnly.reaches h hreach), htar]

/-- The directory of an archive can be entered where a part can be written to it. -/
theorem reaches_of_write {s : Settings} (hp : u.Placed s) (hg : u.Given t given)
    (h : u.write bytes t = .ok w t') : t.Reaches (s.accountDirectory u.account) := by
  obtain ⟨w₀, t₁, hopen, -⟩ := write_eq_ok h
  obtain ⟨-, target, htar⟩ := opening_given hg hopen
  obtain ⟨name, hn, -, harch⟩ := hp.archive
  rw [harch] at htar
  exact (reaches_of_resolve_join hn htar).1

/-- Archives of one place are one archive. -/
theorem Placed.archive_eq {s : Settings} {v : Upload} (hp : u.Placed s) (hp' : v.Placed s)
    (h : Path.place u.archive = Path.place v.archive) :
    u.account = v.account ∧ u.archive = v.archive := by
  have hacc : u.account = v.account := Settings.belongs_unique hp.belongs (h ▸ hp'.belongs)
  obtain ⟨hv, name, hn, -, harch⟩ := hp
  obtain ⟨hv', name', hn', -, harch'⟩ := hp'
  rw [harch, harch', s.place_join hv hn, s.place_join hv' hn'] at h
  have hname : name = name' := (List.cons.inj (List.cons.inj (List.append_cancel_left h)).2).1
  exact ⟨hacc, by rw [harch, harch', hacc, hname]⟩

end Upload

/-! ## What events spare -/

/-- The event may do something for the account. -/
def Event.Concerns (e : Event) (b : Account) : Prop :=
  match e with
  | .register a _ _ _ _ => a = b
  | .append a _ => a = b
  | .finalize a _ => a = b
  | .record t _ => t.job.account = b
  | .files _ => True
  | _ => False

/-- The directories of those who upload can be entered, and their writers are at their archives. -/
def Working (s : Settings) (m : SessionManager) : Prop :=
  ∀ a n u, m.InProgress a n u →
    m.plant.files.Reaches (s.accountDirectory a) ∧ ∃ given, u.Given m.plant.files given

/-- What an account has is as it was: its upload in progress, and the places that belong to it. -/
structure Spares (s : Settings) (b : Account) (m m' : SessionManager) : Prop where
  find : m'.find? b = m.find? b
  known : ∀ (n : Nat) (u : Upload), m.InProgress b n u → m'.uploads[n]? = some u
  files : m.plant.files.Reaches s.archiveDir →
    ChangesOnly (fun p => ¬ s.Belongs b p) m.plant.files m'.plant.files

/-- A record is saved among what belongs to its account. -/
theorem save_belongs {s : Settings} {m : SessionManager} (hs : Sited s m)
    (hn : Path.isPlainName s.sessionFile = true) {r : SessionRecord} {t : FileTree}
    (hv : r.account.isValid = true) (ht : t.Reaches s.archiveDir) :
    ChangesOnly (s.Belongs r.account) t (finalState (m.records.save r) t) := by
  have hn' : Path.isPlainName m.records.fileName = true := hs.fileName ▸ hn
  refine (RecordStore.save_changes hn' (hs.root ▸ ht)).mono fun p hp => ?_
  rcases hp with rfl | rfl | rfl
  · exact .inl (by rw [hs.root])
  · rw [RecordStore.place_beside _ hv hn', hs.root]
    exact .inr ⟨_, rfl⟩
  · rw [RecordStore.place_file _ hv hn', hs.root]
    exact .inr ⟨_, rfl⟩

namespace Effect

variable {s : Settings} {h : List Note} {m m' : SessionManager} {e : Event} {notes : List Note}
  {a b : Account} {n : Nat} {u : Upload} {t : FileTree}

/-- What is done among the belongings of one account spares every other. -/
theorem spared_files {t' : FileTree} (hab : a ≠ b) (hc : ChangesOnly (s.Belongs a) t t') :
    ChangesOnly (fun p => ¬ s.Belongs b p) t t' :=
  hc.mono fun _ hp hp' => hab (Settings.belongs_unique hp hp')

/-- What is done to the archive of an account spares every other. -/
theorem spared_archive {t' : FileTree} (hab : a ≠ b) (hp : u.Placed s) (hown : u.account = a)
    (hc : ChangesOnly (· = Path.place u.archive) t t') :
    ChangesOnly (fun p => ¬ s.Belongs b p) t t' :=
  spared_files hab (hc.mono (by rintro p rfl; exact hown ▸ hp.belongs))

/-- Writing and throwing away touches the place of the archive. -/
theorem discard_changes (hu : u.Housed t) {t₁ : FileTree} {bytes : List UInt8}
    (hleft : t₁ = t ∨ ∃ f, u.write bytes t = .error f t₁) :
    ChangesOnly (· = Path.place u.archive) t (finalState (Files.remove u.archive) t₁) :=
  (Upload.unwritten_changes hu hleft).trans (Files.remove_changes u.archive t₁)

/-- What closing an archive and saving a record does to the files. -/
theorem fail_changes (hs : Sited s m) (hn : Path.isPlainName s.sessionFile = true)
    (hp : u.Placed s) (hu : u.Housed t) (ht : t.Reaches (s.accountDirectory u.account))
    {r : SessionRecord} (hr : r.account = u.account) :
    ChangesOnly (s.Belongs u.account) t
      (finalState (m.records.save r) (finalState u.close t)) := by
  have hclose : ChangesOnly (s.Belongs u.account) t (finalState u.close t) :=
    (Upload.close_changes hu).mono (by rintro p rfl; exact hp.belongs)
  have hroot := hclose.reaches (Settings.reaches_archiveDir hp.valid ht)
  have hsave := save_belongs hs hn (r := r) (hr ▸ hp.valid) hroot
  rw [hr] at hsave
  exact hclose.trans hsave

/-- An event spares every account that it does not concern. -/
theorem spares (he : Effect m e m' notes) (hl : Linked h m) (hs : Sited s m)
    (hn : Path.isPlainName s.sessionFile = true) (hw : Working s m) (hb : ¬ e.Concerns b) :
    Spares s b m m' := by
  -- The three things events do besides nothing: change an upload of `a`, take away the session of
  -- `a`, make the directory of `a`.
  have hput : ∀ {a k v v'}, m.InProgress a k v → a ≠ b → ∀ (n : Nat) (u : Upload),
      m.InProgress b n u → (m.put k v').uploads[n]? = some u := by
    intro a k v v' hk hab n u hu
    refine Linked.known_put hk.known hu.known ?_
    rw [hl.own hk, hl.own hu]
    exact Ne.symm hab
  have hunlink : ∀ {a k v v'}, m.InProgress a k v → a ≠ b →
      (unlink v.account (m.put k v')).find? b = m.find? b := by
    intro a k v v' hk hab
    rw [hl.own hk]
    exact (Linked.find?_unlink (m.put k v') a b).trans (if_neg hab)
  have hdir : ∀ {a : Account}, a.isValid = true → a ≠ b → m.plant.files.Reaches s.archiveDir →
      ChangesOnly (fun p => ¬ s.Belongs b p) m.plant.files
        (finalState (Files.createDirectories (m.settings.accountDirectory a)) m.plant.files) := by
    intro a hv hab hreach
    rw [hs.settings]
    exact spared_files hab ((Files.createDirectories_changes
      (Account.isPlainName_of_isValid hv) hreach).mono fun p hp => .inl hp)
  cases he with
  | nothing => exact ⟨rfl, fun _ _ hu => hu.known, fun _ => .refl _ _⟩
  | worked => exact ⟨rfl, fun _ _ hu => hu.known, fun _ => .refl _ _⟩
  -- Anything may have happened to the files, so that event concerns every account.
  | files => exact absurd trivial hb
  | outage => exact ⟨rfl, fun _ _ hu => hu.known, fun _ => .refl _ _⟩
  | @registered a _ _ _ _ v t valid plain free idle new made =>
    have hab : a ≠ b := hb
    refine ⟨(Linked.find?_begin m a b v).trans (if_neg hab), fun _ _ hu => known_begin hu.known v,
      fun hreach => ?_⟩
    have hc := hdir valid hab hreach
    rwa [finalState_of_ok made] at hc
  | @unprepared a _ _ _ _ v t _ valid plain free idle new made =>
    have hab : a ≠ b := hb
    refine ⟨?_, fun _ _ hu => known_begin hu.known v, fun hreach => ?_⟩
    · refine (Linked.find?_unlink (withFiles t (m.begin a v)) a b).trans ((if_neg hab).trans ?_)
      exact (Linked.find?_begin m a b v).trans (if_neg hab)
    · have hc := hdir valid hab hreach
      rwa [finalState_of_error made] at hc
  | @accepted a bytes n u w t current may some written =>
    have hab : a ≠ b := hb
    obtain ⟨-, given, hg⟩ := hw a n u current
    refine ⟨rfl, hput current hab, fun _ => ?_⟩
    exact spared_archive hab (hs.placed n u current.known) (hl.own current)
      (Upload.written_changes hg.housed written)
  | @discarded a bytes n u t current may left =>
    have hab : a ≠ b := hb
    obtain ⟨-, given, hg⟩ := hw a n u current
    refine ⟨hunlink (v := u) current hab, hput current hab, fun _ => ?_⟩
    exact spared_archive hab (hs.placed n u current.known) (hl.own current)
      (discard_changes hg.housed left)
  | @submitted a now n u t p number current may closed taken =>
    have hab : a ≠ b := hb
    obtain ⟨-, given, hg⟩ := hw a n u current
    refine ⟨rfl, hput current hab, fun _ => ?_⟩
    exact spared_archive hab (hs.placed n u current.known) (hl.own current)
      (Upload.closed_changes hg.housed closed)
  -- Here two things are written, the rest of the archive and the record, both of the same account.
  | @failed a now n u t p reason current may left pool queue =>
    have hab : a ≠ b := hb
    obtain ⟨hreach, given, hg⟩ := hw a n u current
    have hown := hl.own current
    refine ⟨@hunlink a n u (u.failedFor reason) current hab, hput current hab, fun _ => ?_⟩
    have hc := fail_changes hs hn (hs.placed n u current.known) hg.housed (hown ▸ hreach)
      (r := (u.failedFor reason).record now) rfl
    rw [hown] at hc
    subst left
    exact spared_files hab hc
  | @recorded t now n u r pending ended current =>
    have hab : t.job.account ≠ b := hb
    obtain ⟨hreach, -⟩ := hw _ n u current
    have hown := hl.own current
    have hp := hs.placed n u current.known
    refine ⟨?_, hput current hab, fun _ => ?_⟩
    · exact (Linked.find?_unlink (m.put n (u.endedWith r)) t.job.account b).trans (if_neg hab)
    · have hc := save_belongs hs hn (r := (u.endedWith r).record now) hp.valid
        (Settings.reaches_archiveDir hp.valid (hown ▸ hreach))
      exact spared_files hab (hown ▸ hc)
  | recordedNowhere pending ended nobody => exact (hl.not_nowhere pending nobody).elim

end Effect

/-! ## Where uploads come from -/

/-- Nobody else changes the files. -/
def Event.KeepsFiles (e : Event) : Prop := ∀ t, e ≠ .files t

/-- How an upload that an account has in progress after an event of the account has come about. -/
inductive Origin (m m' : SessionManager) (b : Account) (n : Nat) (u : Upload) (notes : List Note) :
    Prop where
  | kept (before : m.InProgress b n u) (files : m'.plant.files = m.plant.files)
      (quiet : notes = [])
  | new (number : n = m.uploads.length) (status : u.status = .registered)
      (closed : u.writer = none) (made : m'.plant.files.Reaches (m.settings.accountDirectory b))
      (quiet : notes = [])
  | part (v : Upload) (w : Writer) (bytes : List UInt8) (before : m.InProgress b n v)
      (may : v.status.allows .uploading = true) (some : bytes ≠ [])
      (written : v.write bytes m.plant.files = .ok w m'.plant.files) (now : u = v.receiving w)
      (told : notes = [.accepted n bytes])
  | complete (v : Upload) (o : Option Nat) (t : Ticket) (before : m.InProgress b n v)
      (may : v.status.allows .verifying = true)
      (closed : v.close m.plant.files = .ok () m'.plant.files) (now : u = v.waiting)
      (told : notes = [.submitted o t])

/-- After an event of an account its upload in progress is the one from before, or a new one. -/
theorem Effect.origin {h : List Note} {m m' : SessionManager} {e : Event} {notes : List Note}
    {b : Account} {n : Nat} {u : Upload} (he : Effect m e m' notes) (hl : Linked h m)
    (hq : e.KeepsFiles) (hb : e.Concerns b) (hc : m'.InProgress b n u) :
    Origin m m' b n u notes := by
  -- After an upload was thrown away or has ended there is none.
  have hgone : ∀ {k v}, m.InProgress b k v → m'.live = (unlink v.account m).live → False := by
    intro k v hkv hlive
    have hf : m'.find? b = (unlink v.account m).find? b := congrArg (Keyed.find? b) hlive
    rw [hc.find, hl.own hkv, Linked.find?_unlink, if_pos rfl] at hf
    cases hf
  -- A part or the end of an upload leaves the account with what the upload became.
  have hbecame : ∀ {k v v'}, m.InProgress b k v → m'.find? b = m.find? b →
      m'.uploads = (m.put k v').uploads → n = k ∧ u = v' := by
    intro k v v' hkv hf hup
    obtain rfl : k = n := Option.some.inj ((hf.trans hkv.find).symm.trans hc.find)
    have h := hc.known
    rw [hup, Linked.known_put_self hkv.known] at h
    exact ⟨rfl, (Option.some.inj h).symm⟩
  cases he with
  | nothing => exact .kept hc rfl rfl
  | worked => exact .kept ⟨hc.find, hc.known⟩ rfl rfl
  | outage => exact .kept ⟨hc.find, hc.known⟩ rfl rfl
  | files t => exact absurd rfl (hq t)
  | @registered a info _ _ _ v t valid plain free idle new made =>
    obtain rfl : a = b := hb
    have hf : some m.uploads.length = some n :=
      ((Linked.find?_begin m a a v).trans (if_pos rfl)).symm.trans hc.find
    obtain rfl := Option.some.inj hf
    obtain rfl : v = u := Option.some.inj (List.getElem?_concat_length.symm.trans hc.known)
    exact .new rfl (by rw [new]; rfl) (by rw [new]; rfl) (Files.createDirectories_reaches made) rfl
  | @unprepared a _ _ _ _ v t _ valid plain free idle new made =>
    obtain rfl : a = b := hb
    have hf := (Linked.find?_unlink (withFiles t (m.begin a v)) a a).trans (if_pos rfl)
    exact absurd (hf.symm.trans hc.find) nofun
  | @accepted a bytes k v w t current may some written =>
    obtain rfl : a = b := hb
    obtain ⟨rfl, rfl⟩ := hbecame current rfl rfl
    exact .part v w bytes current may some written rfl rfl
  | discarded current =>
    obtain rfl := hb
    exact (hgone current rfl).elim
  | @submitted a now k v t p number current may closed taken =>
    obtain rfl : a = b := hb
    obtain ⟨rfl, rfl⟩ := hbecame current rfl rfl
    exact .complete v _ _ current may closed rfl rfl
  | failed current =>
    obtain rfl := hb
    exact (hgone current rfl).elim
  | @recorded t now k v r pending ended current =>
    obtain rfl := hb
    have hf := (Linked.find?_unlink (m.put k (v.endedWith r)) t.job.account
      t.job.account).trans (if_pos rfl)
    exact absurd (hf.symm.trans hc.find) nofun
  | recordedNowhere pending ended nobody => exact (hl.not_nowhere pending nobody).elim

end Deployment
