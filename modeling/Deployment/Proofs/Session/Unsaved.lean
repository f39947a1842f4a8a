import Deployment.Proofs.Session.Durability
import Deployment.Proofs.Session.Outcome
import Mathlib.Data.List.Nodup

/-! # Ends that could not be saved

When a deployment has ended, its upload is forgotten whether or not its record could be saved. From
then on the record file is all that is told from, so an end that could not be saved is not told:
the answer is what it was before the upload was registered.

* **`RecordStore.told`** — what the records tell of an account.
* **`RecordStore.save_error_read`** — a record that could not be saved leaves the old one.
* **`Resting`** — an account without an upload, and its record file.
* **`Noted`** — a job whose end was noted.
* **`told_once_noted`** — what is told once the end of a deployment was noted. -/

namespace Deployment

open Stateful FileTree SessionManager

/-! ## What the records tell -/

/-- What the records tell of an account. -/
def RecordStore.told (s : RecordStore) (t : FileTree) (a : Account) :
    Except SessionFault StatusReply :=
  match s.load t a with
  | .ok (some r) => .ok r.reply
  | .ok none => .ok .unknown
  | .error f => .error (.record f)

/-- Of an account without an upload the records tell. -/
theorem SessionManager.status_of_idle {m : SessionManager} {a : Account} (hv : a.isValid = true)
    (hi : m.find? a = none) : m.status a = m.records.told m.plant.files a := by
  simp only [status, hv, hi, Option.bind_none, RecordStore.told]
  cases m.records.load m.plant.files a with
  | error f => rfl
  | ok r => cases r <;> rfl

/-- Two stores of the same files tell the same of an account whose record file reads the same. -/
theorem RecordStore.told_congr {s s' : RecordStore} {t t' : FileTree} {a : Account}
    (hroot : s'.root = s.root) (hfile : s'.fileName = s.fileName) (hdown : s'.loadDown = s.loadDown)
    (hread : t'.read (s.file a) = t.read (s.file a)) : s'.told t' a = s.told t a := by
  have hpath : s'.path a = s.path a := by rw [path, path, hroot, hfile]
  have hload : s'.load t' a = s.load t a := by
    rw [load, load, hdown, hpath, path]
    by_cases hv : a.isValid
    · rw [if_pos hv]
      simp only [Failing.ok_bind]
      rw [show Path.join (Path.join s.root a.name) s.fileName = s.file a from rfl, hread]
    · rw [if_neg hv]
      rfl
  rw [told, told, hload]

/-- A record that could not be saved leaves the one that is there as it was. -/
theorem RecordStore.save_error_read {s : RecordStore} {r : SessionRecord} {t t' : FileTree}
    {f : RecordFault} (hn : Path.isPlainName s.fileName = true) (hv : r.account.isValid = true)
    (ht : t.Reaches s.root) (hd : t.Reaches (s.directory r.account))
    (h : s.save r t = .error f t') :
    t'.read (s.file r.account) = t.read (s.file r.account) := by
  have hch := save_error_changes hn hv ht h
  refine read_join_congr hn hd (hch.reaches hd) ?_
  rw [← Path.place_join _ hn]
  refine hch.same _ fun hdraft => ?_
  rw [show Path.place (Path.join (s.directory r.account) s.fileName) =
    Path.place s.root ++ [r.account.name, s.fileName] from place_file s hv hn] at hdraft
  -- only the directory and the draft beside the record may have changed, and it is neither
  rcases hdraft with hdir | hbeside
  · exact absurd (List.cons.inj (List.append_cancel_left hdir)).2 nofun
  · rw [place_beside s hv hn] at hbeside
    have hnames := (List.cons.inj (List.append_cancel_left hbeside)).2
    exact Path.besideName_ne _ (List.cons.inj hnames).1.symm

/-- A record that was saved is told. -/
theorem RecordStore.told_of_save {s : RecordStore} {r : SessionRecord} {t t' : FileTree}
    (hn : Path.isPlainName s.fileName = true) (hr : r.Sound) (h : s.save r t = .ok () t') :
    { s with loadDown := false }.told t' r.account = .ok r.reply := by
  obtain ⟨hv, -, -, hread⟩ := read_of_save hn (bytes_ne_nil r) h
  have hload : { s with loadDown := false }.load t' r.account = .ok (some r) :=
    load_of_read hv rfl hr hread
  rw [told, hload]

/-! ## Accounts without an upload -/

/-- The event asks for an upload of the account. -/
def Event.Registers (e : Event) (a : Account) : Prop :=
  match e with
  | .register b _ _ _ _ => b = a
  | _ => False

/-- An account without an upload gets none and keeps its files, unless it registers one. -/
theorem Effect.rests {s : Settings} {h : List Note} {m m' : SessionManager} {e : Event}
    {notes : List Note} {a : Account} (he : Effect m e m' notes) (hk : Kept s h m)
    (hn : Path.isPlainName s.sessionFile = true) (hq : e.KeepsFiles) (hidle : m.find? a = none)
    (hno : ¬ e.Registers a) :
    m'.find? a = none ∧ (m.plant.files.Reaches s.archiveDir →
      ChangesOnly (fun p => ¬ s.Belongs a p) m.plant.files m'.plant.files) := by
  by_cases hb : e.Concerns a
  · -- what concerns the account finds no upload to work on
    have hnobody : ∀ {b n u}, m.InProgress b n u → b = a → False := by
      rintro b n u hc rfl
      exact nomatch hidle.symm.trans hc.find
    cases he with
    | nothing => exact ⟨hidle, fun _ => .refl _ _⟩
    | worked => exact ⟨hidle, fun _ => .refl _ _⟩
    | outage => exact ⟨hidle, fun _ => .refl _ _⟩
    | files t => exact absurd rfl (hq t)
    | registered => exact absurd hb hno
    | unprepared => exact absurd hb hno
    | accepted current => exact (hnobody current hb).elim
    | discarded current => exact (hnobody current hb).elim
    | submitted current => exact (hnobody current hb).elim
    | failed current => exact (hnobody current hb).elim
    | recorded pending ended current => exact (hnobody current hb).elim
    | recordedNowhere pending ended nobody => exact (hk.linked.not_nowhere pending nobody).elim
  · have hsp := he.spares hk.linked hk.sited hn hk.working hb
    exact ⟨hsp.find.trans hidle, hsp.files⟩

/-- An account has no upload, and its record file reads as it was found. -/
structure Resting (s : Settings) (a : Account) (found : Except StorageFault (List UInt8))
    (h : List Note) (m : SessionManager) : Prop where
  kept : Kept s h m
  idle : m.find? a = none
  valid : a.isValid = true
  reaches : m.plant.files.Reaches (s.accountDirectory a)
  read : m.plant.files.read (s.recordFile a) = found

namespace Resting

variable {s : Settings} {a : Account} {found : Except StorageFault (List UInt8)} {h : List Note}
  {m m' : SessionManager} {e : Event} {notes : List Note}

/-- As long as the account does not register and nobody else changes files, it goes on to rest. -/
theorem step (hr : Resting s a found h m) (hn : Path.isPlainName s.sessionFile = true)
    (he : Effect m e m' notes) (hq : e.KeepsFiles) (hno : ¬ e.Registers a) :
    Resting s a found (h ++ notes) m' := by
  obtain ⟨hidle, hfiles⟩ := he.rests hr.kept hn hq hr.idle hno
  have hch := hfiles (Settings.reaches_archiveDir hr.valid hr.reaches)
  have hreach := hch.reaches hr.reaches
  have hplace := s.place_join hr.valid hn
  refine ⟨hr.kept.step hn he hq, hidle, hr.valid, hreach, ?_⟩
  rw [← hr.read]
  refine read_join_congr hn hr.reaches hreach ?_
  rw [← Path.place_join _ hn]
  exact hch.same _ fun hnot => hnot (.inr ⟨_, hplace⟩)

/-- So it does over a run. -/
theorem after (hr : Resting s a found h m) (hn : Path.isPlainName s.sessionFile = true)
    {es : List Event} (hes : ∀ e ∈ es, e.KeepsFiles ∧ ¬ e.Registers a) :
    Resting s a found (h ++ m.journal es) (m.after es) :=
  after_induct (fun _ m e hq hr => hr.step hn (effect e m) hq.1 hq.2) hes hr

end Resting

/-! ## Jobs whose end was noted -/

/-- The end of a job was noted. -/
structure Noted (number : Nat) (h : List Note) (m : SessionManager) : Prop where
  linked : Linked h m
  numbered : number < m.plant.pool.stats.submitted
  gone : ∀ t ∈ m.pending, t.number ≠ number

namespace Noted

variable {number : Nat} {h : List Note} {m m' : SessionManager} {e : Event} {notes : List Note}

/-- The end of a job stays noted: other jobs have other numbers. -/
theorem step (hd : Noted number h m) (he : Effect m e m' notes) :
    Noted number (h ++ notes) m' := by
  have hl := hd.linked.step he
  cases he with
  | @submitted a now n u t p number' current may closed taken =>
    -- the pool counts on: the new job has a number that no job had before
    obtain ⟨hnumber, -, -, -, hcount⟩ := Pool.submit_ok taken
    refine ⟨hl, ?_, fun t' ht' => ?_⟩
    · show number < p.stats.submitted
      rw [hcount, hnumber]
      exact Nat.lt_succ_of_lt hd.numbered
    · rcases List.mem_append.1 ht' with ht' | ht'
      · exact hd.gone t' ht'
      · rw [List.mem_singleton.1 ht']
        show number' ≠ number
        rw [hnumber]
        exact Nat.ne_of_gt hd.numbered
  | failed current may left pool => exact ⟨hl, pool.submitted.symm ▸ hd.numbered, hd.gone⟩
  | worked pool => exact ⟨hl, pool.submitted.symm ▸ hd.numbered, hd.gone⟩
  | recorded => exact ⟨hl, hd.numbered, fun t' ht' => hd.gone t' (List.mem_filter.1 ht').1⟩
  | recordedNowhere pending ended nobody =>
    exact (hd.linked.not_nowhere pending nobody).elim
  | _ => exact ⟨hl, hd.numbered, hd.gone⟩

/-- An end that was noted stays so over a run. -/
theorem after (hd : Noted number h m) (es : List Event) :
    Noted number (h ++ m.journal es) (m.after es) :=
  after_induct_all (fun _ m e hd => hd.step (effect e m)) es hd

end Noted

/-! ## What is told of an end -/

/-- The record of an upload whose deployment has ended can be read back. -/
theorem Upload.Tellable.sound_endedWith {u : Upload} (h : u.Tellable) (r : DeployResult)
    {now : Timestamp} (hnow : now.Sound) : ((u.endedWith r).record now).Sound := by
  have ht : (u.endedWith r).Tellable := by
    refine h.goOn rfl rfl fun hs => ?_
    cases r with
    | ok d => cases hs
    | error f => exact ⟨f.message, rfl⟩
  exact ht.sound hnow

/-- To note the end of a job is to save the record of its upload, and to forget both. -/
theorem Event.step_record {m : SessionManager} {k : Ticket} {now : Timestamp} {r : DeployResult}
    {n : Nat} {u : Upload} (waits : k ∈ m.pending) (ended : m.ended? k.number = some r)
    (hc : m.InProgress k.job.account n u) : (Event.record k now).step m =
      { unlink k.job.account (withFiles
          (finalState (m.records.save ((u.endedWith r).record now)) m.plant.files)
          (put n (u.endedWith r) m)) with
        pending := m.pending.filter (· ≠ k) } := by
  simp only [Event.step, if_pos waits, noteEnd, ended, complete_of_current hc]

/-- Right after the end of a job was noted, the record file tells of it if its record could be
saved, and else what it told before. -/
theorem told_of_noted {s : Settings} {h : List Note} {m : SessionManager} {n : Nat} {u : Upload}
    {r : DeployResult} (now : Timestamp) (hn : Path.isPlainName s.sessionFile = true)
    (hk : Kept s h m) (hc : m.InProgress u.account n u) (hu : u.Tellable) (hnow : now.Sound) :
    { m.records with loadDown := false }.told
        (finalState (m.records.save ((u.endedWith r).record now)) m.plant.files) u.account =
      if (yields (m.records.save ((u.endedWith r).record now)) m.plant.files).isOk then
        .ok (.ofOutcome (outcome r).1 (outcome r).2)
      else { m.records with loadDown := false }.told m.plant.files u.account := by
  have hn' : Path.isPlainName m.records.fileName = true := hk.sited.fileName ▸ hn
  have hvalid := (hk.sited.placed n u hc.known).valid
  -- Saved, the record reads back as the end; not saved, the file is as it was.
  cases hsave : m.records.save ((u.endedWith r).record now) m.plant.files with
  | ok _ t' =>
    have hreply : ((u.endedWith r).record now).reply =
        .ofOutcome (outcome r).1 (outcome r).2 := rfl
    have htold := RecordStore.told_of_save hn' (hu.sound_endedWith r hnow) hsave
    rw [hreply] at htold
    have hsaved : (yields (m.records.save ((u.endedWith r).record now)) m.plant.files).isOk := by
      rw [yields_of_ok hsave]
      rfl
    rw [if_pos hsaved, finalState_of_ok hsave]
    exact htold
  | error f t' =>
    rw [finalState_of_error hsave, yields_of_error hsave]
    have hreach := (hk.archives _ n u hc).1
    have hroot := Settings.reaches_archiveDir hvalid hreach
    rw [Settings.accountDirectory, ← hk.sited.root] at hreach
    rw [← hk.sited.root] at hroot
    have hread := RecordStore.save_error_read hn' (r := (u.endedWith r).record now) hvalid hroot
      hreach hsave
    exact RecordStore.told_congr rfl rfl rfl hread

section

variable {s : Settings} {h : List Note} {m : SessionManager} {k : Ticket} {r : DeployResult}
  {n : Nat} {u : Upload} (now : Timestamp)

/-- When the end of its job is noted, an account comes to rest. -/
theorem resting_of_noted (hn : Path.isPlainName s.sessionFile = true) (hk : Kept s h m)
    (waits : k ∈ m.pending) (ended : m.ended? k.number = some r)
    (hc : m.InProgress k.job.account n u) :
    let m' := (Event.record k now).step m
    Resting s k.job.account (m'.plant.files.read (s.recordFile k.job.account))
      (h ++ (Event.record k now).notes m) m' := by
  intro m'
  have hown : u.account = k.job.account := hk.linked.own hc
  have hvalid := (hk.sited.placed n u hc.known).valid
  have hreach := (hk.archives _ n u hc).1
  have hstep : m' = _ := Event.step_record waits ended hc
  refine ⟨hk.step hn (effect _ m) nofun, ?_, hown ▸ hvalid, ?_, rfl⟩
  · rw [hstep]
    exact (Linked.find?_unlink _ _ _).trans (if_pos rfl)
  · have hroot := Settings.reaches_archiveDir (hown ▸ hvalid) hreach
    have hsave := save_belongs hk.sited hn (r := (u.endedWith r).record now) hvalid hroot
    rw [hstep]
    exact hsave.reaches hreach

/-- When the end of a job is noted, no other job has its number. -/
theorem noted_of_noted (hl : Linked h m) (waits : k ∈ m.pending)
    (ended : m.ended? k.number = some r) (hc : m.InProgress k.job.account n u) :
    Noted k.number (h ++ (Event.record k now).notes m) ((Event.record k now).step m) := by
  refine ⟨hl.step (effect _ m), ?_, fun t ht hnumber => ?_⟩
  · rw [Event.step_record waits ended hc]
    exact hl.numbered k waits
  · rw [Event.step_record waits ended hc] at ht
    obtain ⟨ht, hne⟩ := List.mem_filter.1 ht
    have hsame : t = k := List.inj_on_of_nodup_map hl.distinct ht waits hnumber
    exact absurd hsame (of_decide_eq_true hne)

end

/-- Once the end of a deployment was noted, its result can be had, and nothing but the record file
tells of it: the result itself if its record could be saved, and else whatever was told before. So
it stays until the account registers again. -/
theorem told_once_noted (s : Settings) (hs : s.validate = .ok ()) (t : FileTree)
    (md : Metadata) (es es' : List Event) (k : Ticket) (now : Timestamp)
    (proper : ∀ e ∈ es ++ .record k now :: es', e.Proper) {r : DeployResult}
    (waits : k ∈ ((start s t md).after es).pending)
    (ended : ((start s t md).after es).ended? k.number = some r)
    (quiet : ∀ e ∈ es', ¬ e.Registers k.job.account)
    (up : ((start s t md).after (es ++ .record k now :: es')).records.loadDown = false) :
    let before := (start s t md).after es
    let later := (start s t md).after (es ++ .record k now :: es')
    ∃ n u, before.InProgress k.job.account n u ∧
      later.result? ⟨u.resource, k.number⟩ = some r ∧ later.find? k.job.account = none ∧
      later.status k.job.account =
        if (yields (before.records.save ((u.endedWith r).record now)) before.plant.files).isOk then
          .ok (.ofOutcome (outcome r).1 (outcome r).2)
        else { before.records with loadDown := false }.told before.plant.files k.job.account := by
  intro before later
  have hn := Settings.isPlainName_of_validate hs
  obtain ⟨hes, hrest⟩ := List.forall_mem_append.1 proper
  obtain ⟨he, hes'⟩ := List.forall_mem_cons.1 hrest
  obtain ⟨hk, htell⟩ := kept_and_tellable hn hes t md
  obtain ⟨n, u, hc, -, -, -⟩ := hk.linked.of_pending waits
  have hown : u.account = k.job.account := hk.linked.own hc
  have hlater : later = ((Event.record k now).step before).after es' := after_append _ es _
  refine ⟨n, u, hc, ?_, ?_⟩
  · -- the result stays, and the job is not waited for any more
    have hended : Ended n k r ((start s t md).journal es) before := by
      refine ⟨hk.linked, hk.linked.numbered k waits, ended, fun o ho => ?_⟩
      obtain ⟨-, n', u', rfl, hc', -⟩ := hk.linked.of_outstanding ho
      exact congrArg some (hc.unique hc').1.symm
    have hresult : later.ended? k.number = some r := by
      have := (hended.after (.record k now :: es')).result
      rwa [← after_append] at this
    have hgone := ((noted_of_noted now hk.linked waits ended hc).after es').gone
    rw [← hlater] at hgone
    have hnone : later.pending.any (fun t => t.number = k.number) = false := by
      rw [List.any_eq_false]
      exact fun t ht => by simpa using hgone t ht
    rw [result?, hnone]
    exact hresult
  · -- from then on the account rests, and its record file reads as it was left
    have hrest' : ∀ e ∈ es', e.KeepsFiles ∧ ¬ e.Registers k.job.account :=
      fun e he' => ⟨(hes' e he').keeps, quiet e he'⟩
    have hr := (resting_of_noted now hn hk waits ended hc).after hn hrest'
    rw [← hlater] at hr
    have htold := told_of_noted (r := r) now hn hk (hown ▸ hc)
      (htell n u hc.known) (he.times now (List.mem_singleton_self now))
    refine ⟨hr.idle, ?_⟩
    rw [status_of_idle hr.valid hr.idle, ← hown, ← htold]
    have hsited := hr.kept.sited
    refine RecordStore.told_congr (hsited.root.trans hk.sited.root.symm)
      (hsited.fileName.trans hk.sited.fileName.symm) up ?_
    have hread := hr.read
    rw [Event.step_record waits ended hc, ← hown] at hread
    simp only [RecordStore.file, RecordStore.directory, hk.sited.root, hk.sited.fileName]
    exact hread

open Sample in
/-- An end that could be saved is told. -/
theorem saved_end_is_told :
    (service.after (works ++ [.record ⟨0, job⟩ now])).status account = .ok (.of .deployed) := by
  have hsound : now.Sound := ⟨by decide, .inl (by decide), by decide⟩
  have hproper : ∀ e ∈ works ++ .record ⟨0, job⟩ now :: [], e.Proper := by
    intro e he
    simp only [works, ends, begins, List.cons_append, List.nil_append, List.mem_cons,
      List.not_mem_nil, or_false] at he
    rcases he with rfl | rfl | rfl | rfl | rfl | rfl <;>
      exact ⟨by simp [Event.KeepsFiles], by simp [Event.times, hsound]⟩
  -- the run is evaluated once, and what is needed of it is read off below
  have hdone : ((service.after works).uploads[0]?.bind fun u =>
      ((service.after works).ended? 0).map fun r => decide (outcome r = (.deployed, none)) &&
        (yields ((service.after works).records.save ((u.endedWith r).record now))
          (service.after works).plant.files).isOk) = some true := by decide +kernel
  obtain ⟨u, hu, hmap⟩ := Option.bind_eq_some_iff.1 hdone
  obtain ⟨r, hr, hgood⟩ := Option.map_eq_some_iff.1 hmap
  obtain ⟨hout, hsaved⟩ := Bool.and_eq_true_iff.1 hgood
  obtain ⟨n, u', hc, -, -, htold⟩ := told_once_noted settings rfl .empty .empty works [] ⟨0, job⟩
    now hproper (by decide +kernel) hr (by simp) (by decide +kernel)
  obtain ⟨-, rfl⟩ := hc.unique ⟨(by decide +kernel : _ = some 0), hu⟩
  rw [← service, if_pos hsaved, of_decide_eq_true hout] at htold
  exact htold

open Sample in
/-- Where the record cannot be written, a deployment succeeds and its handle tells so, but the
account is said to have no upload at all. -/
theorem unsaved_end_is_not_told :
    let files := finalState (Files.linkFullDevice "root/acme/session.json.tmp") .empty
    let m := (start settings files .empty).after (works ++ [.record ⟨0, job⟩ now])
    (m.result? ⟨(fresh 0).resource, 0⟩).map outcome = some (.deployed, none) ∧
      (m.status account).toOption = some .unknown := by
  decide +kernel

end Deployment
