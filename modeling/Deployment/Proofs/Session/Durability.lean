import Deployment.Proofs.Record.RoundTrip
import Deployment.Proofs.Session.Archive

/-! # Ends are remembered

When an upload has ended, all that is left of it is its record. The record lies in the directory
that its account uploads to, and nothing but the record of a later upload of the account ever
takes its place.

* **`Event.Ends`**, **`Event.Saves`** — an event ends an upload, and its record is saved.
* **`Effect.terminal_kept`** — an upload that has ended does not change any more.
* **`Event.WritesAt`**, **`Effect.changes`** — the places that an event may change for its account,
  and that it changes no others.
* **`Effect.spares_record`** — an event that ends no upload of an account spares its record.
* **`Remembered`** — the record of an account tells of an upload.
* **`terminal_status_durable`** — the status that is told from then on. -/

namespace Deployment

open Stateful FileTree SessionManager

/-! ## What is recorded -/

/-- The times that an event is given. -/
def Event.times : Event → List Timestamp
  | .register _ _ _ _ now => [now]
  | .finalize _ now => [now]
  | .record _ now => [now]
  | _ => []

/-- Nobody else changes the files, and the clock tells times that there are. -/
structure Event.Proper (e : Event) : Prop where
  keeps : e.KeepsFiles
  times : ∀ now ∈ e.times, now.Sound

/-- With the event the upload of a number has ended, and its record was saved without a fault. -/
structure Event.Ends (e : Event) (m : SessionManager) (n : Nat) (u : Upload) : Prop where
  ended : (e.step m).uploads[n]? = some u
  terminal : u.status.isTerminal = true
  saved : ∃ now ∈ e.times, ∃ before,
    m.records.save (u.record now) before = .ok () (e.step m).plant.files

/-- The end of a job ends its upload. -/
theorem Event.ends_record {m : SessionManager} {t : Ticket} {now : Timestamp} {n : Nat}
    {u : Upload} {r : DeployResult} (pending : t ∈ m.pending) (ended : m.ended? t.number = some r)
    (current : m.InProgress t.job.account n u)
    (saved : (yields (m.records.save ((u.endedWith r).record now)) m.plant.files).isOk = true) :
    (Event.record t now).Ends m n (u.endedWith r) := by
  have hstep : (Event.record t now).step m =
      { complete t.job.account r now m with pending := m.pending.filter (· ≠ t) } := by
    simp only [Event.step, if_pos pending, noteEnd, ended]
  rw [complete_of_current current] at hstep
  refine ⟨?_, ?_, now, List.mem_singleton_self now, m.plant.files, ?_⟩
  · rw [hstep]
    exact Linked.known_put_self current.known _
  · cases r <;> rfl
  · rw [hstep]
    simp only [yields] at saved
    simp only [unlink, withFiles, finalState]
    cases hsave : m.records.save ((u.endedWith r).record now) m.plant.files with
    | ok _ t' => rfl
    | error f t' =>
      rw [hsave] at saved
      cases saved

/-- What the record of an upload can tell: the upload came first with its identity, began at a
time that there is, and has a reason if it failed. -/
structure Upload.Tellable (u : Upload) : Prop where
  version : u.resource.version = 1
  createdAt : u.createdAt.Sound
  reason : u.status = .failed → ∃ reason, u.error = some reason

namespace Upload

variable {u v : Upload}

/-- The record of an upload can be read back. -/
theorem Tellable.sound (h : u.Tellable) {now : Timestamp} (hn : now.Sound) :
    (u.record now).Sound where
  version_le := by
    show u.resource.version ≤ _
    rw [h.version]
    decide
  createdAt := h.createdAt
  updatedAt := hn

/-- The answer for an upload that has ended tells its status, and why it failed. -/
theorem Tellable.reply (h : u.Tellable) (ht : u.status.isTerminal = true) :
    u.reply.status = u.status ∧ (u.status = .failed → u.error = some u.reply.message) := by
  rw [Upload.reply]
  cases hs : u.status with
  | failed =>
    obtain ⟨reason, hr⟩ := h.reason hs
    rw [hr]
    exact ⟨rfl, fun _ => rfl⟩
  | deployed => exact ⟨rfl, nofun⟩
  | _ => simp [hs, Status.isTerminal] at ht

/-- An upload that goes on stays tellable. -/
theorem Tellable.goOn (h : u.Tellable) (hr : v.resource = u.resource)
    (hc : v.createdAt = u.createdAt) (hs : v.status = .failed → ∃ reason, v.error = some reason) :
    v.Tellable :=
  ⟨hr ▸ h.version, hc ▸ h.createdAt, hs⟩

end Upload

/-- Every upload of the manager can be told of. -/
def Tellable (m : SessionManager) : Prop :=
  ∀ (n : Nat) (u : Upload), m.uploads[n]? = some u → u.Tellable

namespace Effect

variable {s : Settings} {h : List Note} {m m' : SessionManager} {e : Event} {notes : List Note}
  {a : Account}

/-- Every upload can be told of after every event, if the clock tells times that there are. -/
theorem tellable (he : Effect m e m' notes) (hl : Linked h m) (hm : Tellable m)
    (hp : e.Proper) : Tellable m' := by
  have hnew : ∀ {a info requester id now}, e = .register a info requester id now →
      (m.newUpload a info requester id now).Tellable := by
    rintro a info requester id now rfl
    exact ⟨rfl, hp.times now (List.mem_singleton_self now), nofun⟩
  cases he with
  | nothing => exact hm
  | worked => exact hm
  | files => exact hm
  | outage => exact hm
  | registered valid plain free idle new made =>
    exact forall_begin hm (new ▸ hnew rfl)
  | unprepared valid plain free idle new made =>
    exact forall_begin hm (new ▸ hnew rfl)
  | accepted current => exact forall_put hm _ ((hm _ _ current.known).goOn rfl rfl nofun)
  | discarded current =>
    have hu := hm _ _ current.known
    exact forall_put hm _ (hu.goOn rfl rfl hu.reason)
  | submitted current => exact forall_put hm _ ((hm _ _ current.known).goOn rfl rfl nofun)
  | @failed _ _ _ _ _ _ reason current =>
    exact forall_put hm _ ((hm _ _ current.known).goOn rfl rfl fun _ => ⟨reason, rfl⟩)
  | @recorded _ _ _ _ r pending ended current =>
    refine forall_put hm _ ((hm _ _ current.known).goOn rfl rfl fun hs => ?_)
    cases r with
    | ok d => cases hs
    | error f => exact ⟨f.message, rfl⟩
  | recordedNowhere pending ended nobody => exact (hl.not_nowhere pending nobody).elim

/-- An upload that has ended does not change any more. -/
theorem terminal_kept (he : Effect m e m' notes) (hl : Linked h m) {k : Nat} {v : Upload}
    (hv : m.uploads[k]? = some v) (ht : v.status.isTerminal = true) :
    m'.uploads[k]? = some v := by
  -- Only an upload that has not ended is ever put back, so an ended one is some other entry.
  have hput : ∀ {n : Nat} {u w : Upload}, m.uploads[n]? = some u →
      u.status.isTerminal = false → (m.put n w).uploads[k]? = some v := by
    intro n u w hu hs
    have hne : n ≠ k := by
      rintro rfl
      rw [Option.some.inj (hu.symm.trans hv), ht] at hs
      cases hs
    exact (List.getElem?_set_ne hne).trans hv
  cases he with
  | nothing => exact hv
  | worked => exact hv
  | files => exact hv
  | outage => exact hv
  | registered => exact known_begin hv _
  | unprepared => exact known_begin hv _
  | accepted current may => exact hput current.known (Status.not_terminal_of_allows may)
  | discarded current may => exact hput current.known (Status.not_terminal_of_allows may)
  | submitted current may => exact hput current.known (Status.not_terminal_of_allows may)
  | failed current may => exact hput current.known (Status.not_terminal_of_allows may)
  | recorded pending ended current =>
    obtain ⟨n, u, hc, hs, -⟩ := hl.of_pending pending
    obtain ⟨rfl, rfl⟩ := hc.unique current
    exact hput current.known (by rw [hs]; rfl)
  | recordedNowhere pending ended nobody => exact (hl.not_nowhere pending nobody).elim

end Effect

/-- Every upload can be told of after every run, with its archive kept as it should be. -/
theorem kept_and_tellable {s : Settings} (hn : Path.isPlainName s.sessionFile = true)
    {es : List Event} (hes : ∀ e ∈ es, e.Proper) (t : FileTree) (md : Metadata) :
    Kept s ((start s t md).journal es) ((start s t md).after es) ∧
      Tellable ((start s t md).after es) := by
  have hstart : Tellable (start s t md) := by
    intro n u hu
    simp [start] at hu
  have h := @after_induct Event.Proper (fun h m => Kept s h m ∧ Tellable m)
    (fun _ m e he hk => ⟨hk.1.step hn (effect e m) he.keeps,
      (effect e m).tellable hk.1.linked hk.2 he⟩) es hes [] _ ⟨.start s t md, hstart⟩
  rwa [List.nil_append] at h

/-- An upload that has ended does not change over any run. -/
theorem terminal_after {h : List Note} {m : SessionManager} (hl : Linked h m) {k : Nat}
    {v : Upload} (hv : m.uploads[k]? = some v) (ht : v.status.isTerminal = true)
    (es : List Event) : (m.after es).uploads[k]? = some v := by
  induction es generalizing h m with
  | nil => exact hv
  | cons e es ih => exact ih (hl.step (effect e m)) ((effect e m).terminal_kept hl hv ht)

/-- The upload of a number is there, and is of the account. -/
def SessionManager.HasUpload (m : SessionManager) (a : Account) (n : Nat) : Prop :=
  ∃ u, m.uploads[n]? = some u ∧ u.account = a

/-- The upload of a number is one of the account and has ended. -/
def SessionManager.HasEnded (m : SessionManager) (a : Account) (n : Nat) : Prop :=
  ∃ u, m.uploads[n]? = some u ∧ u.account = a ∧ u.status.isTerminal = true

/-! ## What leaves a record alone -/

namespace Settings

variable {s : Settings} {a : Account}

/-- The file of the record of an account. -/
def recordFile (s : Settings) (a : Account) : String :=
  Path.join (s.accountDirectory a) s.sessionFile

/-- No archive lies where a record lies. -/
theorem archive_ne_recordFile (hn : Path.isPlainName s.sessionFile = true) {u : Upload}
    (hp : u.Placed s) : Path.place u.archive ≠ Path.place (s.recordFile u.account) := by
  obtain ⟨hv, name, hname, hfree, harch⟩ := hp
  rw [harch, recordFile, s.place_join hv hname, s.place_join hv hn]
  intro he
  obtain rfl : name = s.sessionFile :=
    (List.cons.inj (List.cons.inj (List.append_cancel_left he)).2).1
  simp [isReserved] at hfree

end Settings

/-- The places of the record of an account: that of the file, and the one beside it. -/
def Settings.Recorded (s : Settings) (a : Account) (p : Place) : Prop :=
  p = Path.place s.archiveDir ++ [a.name, Path.besideName s.sessionFile] ∨
    p = Path.place s.archiveDir ++ [a.name, s.sessionFile]

/-- No archive lies where a record is written. -/
theorem Upload.Placed.not_recorded {s : Settings} {u : Upload} (hp : u.Placed s) (a : Account) :
    ¬ s.Recorded a (Path.place u.archive) := by
  obtain ⟨hv, name, hn, hfree, harch⟩ := hp
  simp only [Settings.isReserved, Bool.or_eq_false_iff, decide_eq_false_iff_not] at hfree
  rw [harch, s.place_join hv hn]
  rintro (h | h)
  · exact hfree.2 (List.cons.inj (List.cons.inj (List.append_cancel_left h)).2).1
  · exact hfree.1 (List.cons.inj (List.cons.inj (List.append_cancel_left h)).2).1

/-- A record is written for its account. -/
theorem Settings.Recorded.belongs {s : Settings} {a : Account} {p : Place} (h : s.Recorded a p) :
    s.Belongs a p :=
  h.elim (fun h => .inr ⟨_, h⟩) fun h => .inr ⟨_, h⟩

/-- Saving a record changes of what was there only the places of the record. -/
theorem Sited.save_retains {s : Settings} {m : SessionManager} (hs : Sited s m)
    (hn : Path.isPlainName s.sessionFile = true) {r : SessionRecord}
    (hv : r.account.isValid = true) (t : FileTree) :
    Retains (s.Recorded r.account) t (finalState (m.records.save r) t) := by
  have hn' : Path.isPlainName m.records.fileName = true := hs.fileName ▸ hn
  refine (RecordStore.save_retains hn' r t).mono fun p hp => ?_
  rwa [RecordStore.place_beside _ hv hn', RecordStore.place_file _ hv hn', hs.root,
    hs.fileName] at hp

/-- Besides these it changes the directory of the account. -/
theorem Sited.save_changes {s : Settings} {m : SessionManager} (hs : Sited s m)
    (hn : Path.isPlainName s.sessionFile = true) {r : SessionRecord}
    (hv : r.account.isValid = true) {t : FileTree} (ht : t.Reaches s.archiveDir) :
    ChangesOnly (fun p => p = Path.place s.archiveDir ++ [r.account.name] ∨ s.Recorded r.account p)
      t (finalState (m.records.save r) t) := by
  have hn' : Path.isPlainName m.records.fileName = true := hs.fileName ▸ hn
  refine (RecordStore.save_changes hn' (hs.root ▸ ht)).mono fun p hp => ?_
  rwa [RecordStore.Touched, RecordStore.place_beside _ hv hn', RecordStore.place_file _ hv hn',
    hs.root, hs.fileName] at hp

/-- The places that an event may change for its account: the directory of the account, the archive
that a part comes for or that is open, and those of the record if an upload comes to its end. -/
inductive Event.WritesAt (s : Settings) (m m' : SessionManager) (e : Event) (a : Account) :
    Place → Prop where
  | directory : WritesAt s m m' e a (Path.place s.archiveDir ++ [a.name])
  | archive {n : Nat} {u : Upload} (current : m.InProgress a n u)
      (written : u.writer = none →
        ∃ bytes, e = .append a bytes ∧ u.status.allows .uploading = true) :
      WritesAt s m m' e a (Path.place u.archive)
  | record {p : Place} {n : Nat} (recorded : s.Recorded a p) (ended : m'.HasEnded a n)
      (before : ¬ m.HasEnded a n) : WritesAt s m m' e a p

namespace Effect

variable {s : Settings} {h : List Note} {m m' : SessionManager} {e : Event} {notes : List Note}
  {a : Account}

/-- An event changes no other places for its account. -/
theorem changes (he : Effect m e m' notes) (hk : Kept s h m)
    (hn : Path.isPlainName s.sessionFile = true) (hq : e.KeepsFiles) (hv : a.isValid = true)
    (hr : m.plant.files.Reaches s.archiveDir) (hb : e.Concerns a) :
    ChangesOnly (e.WritesAt s m m' a) m.plant.files m'.plant.files := by
  have hdirectory : ChangesOnly (e.WritesAt s m m' a) m.plant.files
      (finalState (Files.createDirectories (m.settings.accountDirectory a)) m.plant.files) := by
    rw [hk.sited.settings]
    refine (Files.createDirectories_changes (Account.isPlainName_of_isValid hv) hr).mono ?_
    rintro p rfl
    exact .directory
  have hclose : ∀ {n u}, m.InProgress a n u →
      ChangesOnly (e.WritesAt s m m' a) m.plant.files (finalState u.close m.plant.files) := by
    intro n u hc
    cases hw : u.writer with
    | none =>
      rw [Upload.close, hw]
      exact .refl _ _
    | some w =>
      obtain ⟨-, given, hg⟩ := hk.working a n u hc
      refine (Upload.close_changes hg.housed).mono ?_
      rintro p rfl
      exact .archive hc fun hnone => absurd (hw.symm.trans hnone) (Option.some_ne_none w)
  -- A record is saved only where an upload that had not ended ends.
  have hsave : ∀ {n u v t r}, m.InProgress a n u → u.status.isTerminal = false →
      m'.uploads[n]? = some v → v.account = a → v.status.isTerminal = true → r.account = a →
      t.Reaches s.archiveDir →
      ChangesOnly (e.WritesAt s m m' a) t (finalState (m.records.save r) t) := by
    rintro n u v t r hc hu hm' hown hend rfl ht
    refine (hk.sited.save_changes hn hv ht).mono ?_
    rintro p (rfl | hrecorded)
    · exact .directory
    · refine .record hrecorded ⟨v, hm', hown, hend⟩ ?_
      rintro ⟨w, hw, -, hterminal⟩
      rw [Option.some.inj (hw.symm.trans hc.known), hu] at hterminal
      cases hterminal
  cases he with
  | nothing => exact .refl _ _
  | worked => exact .refl _ _
  | outage => exact .refl _ _
  | files t => exact absurd rfl (hq t)
  | registered valid plain free idle new made =>
    obtain rfl := hb
    rwa [finalState_of_ok made] at hdirectory
  | unprepared valid plain free idle new made =>
    obtain rfl := hb
    rwa [finalState_of_error made] at hdirectory
  | @accepted _ bytes n u w t current may some written =>
    obtain rfl := hb
    obtain ⟨-, given, hg⟩ := hk.working _ n u current
    refine (Upload.written_changes hg.housed written).mono ?_
    rintro p rfl
    exact .archive current fun _ => ⟨bytes, rfl, may⟩
  | @discarded _ bytes n u t current may left =>
    obtain rfl := hb
    obtain ⟨-, given, hg⟩ := hk.working _ n u current
    refine (discard_changes hg.housed left).mono ?_
    rintro p rfl
    exact .archive current fun _ => ⟨bytes, rfl, may⟩
  | submitted current may closed =>
    obtain rfl := hb
    have hch := hclose current
    rwa [finalState_of_ok closed] at hch
  | @failed _ now n u t p reason current may left =>
    obtain rfl := hb
    have hu : u.status.isTerminal = false := by
      rcases Status.allows_verifying.1 may with hu | hu <;> rw [hu] <;> rfl
    have hown := hk.linked.own current
    have hch := hclose current
    subst left
    exact hch.trans (hsave current hu
      (Linked.known_put_self current.known (u.failedFor reason)) hown rfl hown (hch.reaches hr))
  | @recorded t now n u r pending ended current =>
    obtain rfl := hb
    obtain ⟨n', u', hc, hs, -⟩ := hk.linked.of_pending pending
    rw [(hc.unique current).2] at hs
    have hown := hk.linked.own current
    exact hsave current (by rw [hs]; rfl)
      (Linked.known_put_self current.known (u.endedWith r)) hown (by cases r <;> rfl) hown hr
  | recordedNowhere pending ended nobody => exact (hk.linked.not_nowhere pending nobody).elim

/-- An event that ends no upload of an account spares the record of the account. -/
theorem spares_record (he : Effect m e m' notes) (hk : Kept s h m)
    (hn : Path.isPlainName s.sessionFile = true) (hq : e.KeepsFiles) (hv : a.isValid = true)
    (hr : m.plant.files.Reaches s.archiveDir)
    (hold : ∀ n, m'.HasEnded a n → m.HasEnded a n) :
    ChangesOnly (· ≠ Path.place (s.recordFile a)) m.plant.files m'.plant.files := by
  have hplace := s.place_join hv hn
  by_cases hb : e.Concerns a
  · refine (he.changes hk hn hq hv hr hb).mono fun p hp => ?_
    cases hp with
    -- A directory of the account is one name shorter than the record in it.
    | directory =>
      intro heq
      rw [Settings.recordFile, hplace] at heq
      exact absurd (List.cons.inj (List.append_cancel_left heq)).2 nofun
    | archive current written =>
      have hne := Settings.archive_ne_recordFile hn (hk.sited.placed _ _ current.known)
      rwa [hk.linked.own current] at hne
    | record recorded ended before => exact absurd (hold _ ended) before
  · refine ((he.spares hk.linked hk.sited hn hk.working hb).files hr).mono fun p hp heq => ?_
    exact hp (heq ▸ .inr ⟨_, hplace⟩)

end Effect

/-! ## What is told -/

/-- The record of an account tells of an upload, at whatever time it was saved. -/
structure Remembered (s : Settings) (u : Upload) (h : List Note) (m : SessionManager) : Prop where
  kept : Kept s h m
  valid : u.account.isValid = true
  reaches : m.plant.files.Reaches (s.accountDirectory u.account)
  read : ∃ now : Timestamp, now.Sound ∧
    m.plant.files.read (s.recordFile u.account) = .ok (RecordStore.bytes (u.record now))

namespace Remembered

variable {s : Settings} {u : Upload} {h : List Note} {m m' : SessionManager} {e : Event}
  {notes : List Note}

/-- A record that was saved without a fault is remembered. -/
theorem of_save (hk : Kept s h m) (hn : Path.isPlainName s.sessionFile = true) {now : Timestamp}
    (hnow : now.Sound) {store : RecordStore} (hroot : store.root = s.archiveDir)
    (hfile : store.fileName = s.sessionFile) {t : FileTree}
    (hsave : store.save (u.record now) t = .ok () m.plant.files) : Remembered s u h m := by
  obtain ⟨hv, -, hreach, hread⟩ :=
    RecordStore.read_of_save (hfile ▸ hn) (RecordStore.bytes_ne_nil _) hsave
  simp only [RecordStore.file, RecordStore.directory, hroot, hfile] at hreach hread
  exact ⟨hk, hv, hreach, now, hnow, hread⟩

/-- An upload is remembered as long as no other of its account ends. -/
theorem step (hr : Remembered s u h m) (hn : Path.isPlainName s.sessionFile = true)
    (he : Effect m e m' notes) (hq : e.KeepsFiles)
    (hold : ∀ n, m'.HasEnded u.account n → m.HasEnded u.account n) :
    Remembered s u (h ++ notes) m' := by
  have hc := he.spares_record hr.kept hn hq hr.valid
    (Settings.reaches_archiveDir hr.valid hr.reaches) hold
  obtain ⟨now, hnow, hread⟩ := hr.read
  refine ⟨hr.kept.step hn he hq, hr.valid, hc.reaches hr.reaches, now, hnow, ?_⟩
  rw [← hread]
  refine read_join_congr hn hr.reaches (hc.reaches hr.reaches) ?_
  rw [← Path.place_join _ hn]
  exact hc.same _ fun hne => hne rfl

/-- An upload is remembered over every run in which no other of its account ends. -/
theorem after (hr : Remembered s u h m) (hn : Path.isPlainName s.sessionFile = true)
    {es : List Event} (hes : ∀ e ∈ es, e.KeepsFiles)
    (hold : ∀ n, (m.after es).HasEnded u.account n → m.HasEnded u.account n) :
    Remembered s u (h ++ m.journal es) (m.after es) := by
  induction es generalizing h m with
  | nil => simpa only [SessionManager.after, journal, List.append_nil] using hr
  | cons e es ih =>
    have he := effect e m
    have hl := hr.kept.linked
    -- What has ended stays ended, so what ends on the way has ended at the end.
    have hstay : ∀ n, m.HasEnded u.account n → (e.step m).HasEnded u.account n := by
      rintro n ⟨v, hv, hown, ht⟩
      exact ⟨v, he.terminal_kept hl hv ht, hown, ht⟩
    have hstays : ∀ n, (e.step m).HasEnded u.account n →
        ((e.step m).after es).HasEnded u.account n := by
      rintro n ⟨v, hv, hown, ht⟩
      exact ⟨v, terminal_after (hl.step he) hv ht es, hown, ht⟩
    have hstep := hr.step hn he (hes e (List.mem_cons_self ..)) fun n hn => hold n (hstays n hn)
    rw [SessionManager.after, journal, ← List.append_assoc]
    exact ih hstep (fun e' he' => hes e' (List.mem_cons_of_mem e he')) fun n hn =>
      hstay n (hold n hn)

/-- The status of an upload that is remembered is told once its account has no other. -/
theorem status (hr : Remembered s u h m) (ht : u.Tellable) {m' : SessionManager}
    (hidle : m'.find? u.account = none) (hfiles : m'.plant.files = m.plant.files)
    (hroot : m'.records.root = s.archiveDir) (hfile : m'.records.fileName = s.sessionFile)
    (hup : m'.records.loadDown = false) : m'.status u.account = .ok u.reply := by
  obtain ⟨now, hnow, hread⟩ := hr.read
  have hplace : m'.records.file u.account = s.recordFile u.account := by
    rw [RecordStore.file, RecordStore.directory, hroot, hfile]
    rfl
  have hload : m'.records.load m'.plant.files u.account = .ok (some (u.record now)) :=
    RecordStore.load_of_read hr.valid hup (ht.sound hnow) (by rw [hplace, hfiles, hread])
  simp only [SessionManager.status, hr.valid, hidle, Option.bind_none, hload]
  rfl

end Remembered

/-- Once an upload has ended and its record was saved, its end is what is told of its account
whenever the account has no upload in progress, until another of its uploads ends. A manager that
is started over the same files tells it too. -/
theorem terminal_status_durable (s : Settings) (hs : s.validate = .ok ()) (t : FileTree)
    (md : Metadata) (es es' : List Event) (e : Event) (proper : ∀ e' ∈ es ++ e :: es', e'.Proper)
    {n : Nat} {u : Upload} (ends : e.Ends ((start s t md).after es) n u)
    (idle : ((start s t md).after (es ++ e :: es')).find? u.account = none)
    (last : ∀ k, ((start s t md).after (es ++ e :: es')).HasEnded u.account k →
      ((start s t md).after (es ++ [e])).HasEnded u.account k) :
    (((start s t md).after (es ++ e :: es')).records.loadDown = false →
        ((start s t md).after (es ++ e :: es')).status u.account = .ok u.reply) ∧
      (∀ md', (start s ((start s t md).after (es ++ e :: es')).plant.files md').status u.account =
        .ok u.reply) ∧
      u.reply.status = u.status ∧ (u.status = .failed → u.error = some u.reply.message) := by
  have hn := Settings.isPlainName_of_validate hs
  obtain ⟨hes, hee⟩ := List.forall_mem_append.1 proper
  obtain ⟨he, hes'⟩ := List.forall_mem_cons.1 hee
  -- The run is read in two: up to the end that was saved, and from there on.
  have hsplit : ∀ m : SessionManager,
      m.after (es ++ e :: es') = (m.after (es ++ [e])).after es' := by
    intro m
    rw [← after_append, List.append_assoc]
    rfl
  have hpre : ∀ e' ∈ es ++ [e], e'.Proper := by
    intro e' he'
    rcases List.mem_append.1 he' with he' | he'
    · exact hes e' he'
    · exact List.mem_singleton.1 he' ▸ he
  have hstep : (start s t md).after (es ++ [e]) = e.step ((start s t md).after es) :=
    after_append _ es [e]
  obtain ⟨hkept, htellable⟩ := kept_and_tellable hn hpre t md
  rw [hsplit] at idle last ⊢
  rw [hstep] at hkept htellable idle last ⊢
  obtain ⟨now, hnow, before, hsave⟩ := ends.saved
  have hsited := (kept_and_tellable hn hes t md).1.sited
  have hu := htellable n u ends.ended
  -- The record is remembered when it is saved, and by every later event as no newer end replaces
  -- it.
  have hr := (Remembered.of_save hkept hn (he.times now hnow) hsited.root hsited.fileName
    hsave).after hn (fun e' he' => (hes' e' he').keeps) last
  obtain ⟨hreply, hreason⟩ := hu.reply ends.terminal
  exact ⟨hr.status hu idle rfl hr.kept.sited.root hr.kept.sited.fileName,
    fun md' => hr.status hu rfl rfl rfl rfl rfl, hreply, hreason⟩

open Sample in
/-- A deployment is told of still when the upload after it was thrown away. -/
theorem deployed_is_told :
    let m := service.after (works ++ .record ⟨0, job⟩ now :: [begins 1, .append account []])
    m.status account = .ok (.of .deployed) ∧
      ∀ md, (start settings m.plant.files md).status account = .ok (.of .deployed) := by
  intro m
  -- Everything the theorem asks of the first run, evaluated once.
  have hdone : ((service.after works).uploads[0]?.bind fun u =>
      ((service.after works).ended? 0).map fun r =>
        u.account = account && decide (outcome r = (.deployed, none)) &&
          (yields ((service.after works).records.save ((u.endedWith r).record now))
            (service.after works).plant.files).isOk) = some true := by decide +kernel
  obtain ⟨u, hu, hmap⟩ := Option.bind_eq_some_iff.1 hdone
  obtain ⟨r, hr, hgood⟩ := Option.map_eq_some_iff.1 hmap
  simp only [Bool.and_eq_true, decide_eq_true_eq] at hgood
  obtain ⟨⟨hown, hout⟩, hsaved⟩ := hgood
  have hown' : (u.endedWith r).account = account := hown
  have hends : (Event.record ⟨0, job⟩ now).Ends (service.after works) 0 (u.endedWith r) :=
    Event.ends_record (by decide +kernel) hr ⟨by decide +kernel, hu⟩ hsaved
  have hsound : now.Sound := ⟨by decide, .inl (by decide), by decide⟩
  have hproper : ∀ e ∈ works ++ .record ⟨0, job⟩ now :: [begins 1, .append account []],
      e.Proper := by
    intro e he
    simp only [works, ends, begins, List.cons_append, List.nil_append, List.mem_cons,
      List.not_mem_nil, or_false] at he
    rcases he with rfl | rfl | rfl | rfl | rfl | rfl | rfl | rfl <;>
      exact ⟨nofun, by simp [Event.times, hsound]⟩
  obtain ⟨hstatus, hfind, hup⟩ : m.uploads.map (·.status) = [.deployed, .registered] ∧
      m.find? account = none ∧ m.records.loadDown = false := by decide +kernel
  have hreply : (u.endedWith r).reply = .of .deployed := by
    simp only [Upload.reply, Upload.endedWith, hout]
    rfl
  have hidle : m.find? (u.endedWith r).account = none := by rw [hown', hfind]
  have htold := terminal_status_durable settings rfl .empty .empty works
    [begins 1, .append account []] _ hproper hends hidle (by
      -- Of the two uploads only the first has ended, and that before the last event.
      rintro k ⟨w, hw, -, ht⟩
      have hk : some w.status = [Status.deployed, .registered][k]? := by
        rw [← hstatus, List.getElem?_map, show m.uploads[k]? = some w from hw]
        rfl
      rcases k with _ | _ | k
      · exact ⟨_, hends.ended, rfl, hends.terminal⟩
      · rw [Option.some.inj hk] at ht
        cases ht
      · cases hk)
  rw [hreply, hown'] at htold
  exact ⟨htold.1 hup, htold.2.1⟩

end Deployment
