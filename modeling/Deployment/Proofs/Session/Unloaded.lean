import Deployment.Proofs.Session.Archive
import Deployment.Proofs.Session.Outcome

/-! # Uploads without a part

An upload that ends before any part of it came has written nothing. Its job reads what lies under
the name of its archive all the same, and that may be what an earlier upload left there.

* **`Untouched`** — what an upload without a part finds at its archive stays as it is.
* **`EndsUnloaded`** — a job ends because its archive cannot be loaded.
* **`empty_upload_unloaded_iff`** — which uploads without a part end so. -/

namespace Deployment

open Stateful FileTree SessionManager

/-! ## Archives that cannot be loaded -/

/-- A deployment whose archive cannot be loaded ends with just that, and changes nothing. -/
theorem DeployJob.run_of_unreadable {job : DeployJob} {t : FileTree} {f : DeployFault}
    (h : readArchive t job.archive = .error f) (md : Metadata) : job.run t md = .error f md := by
  simp only [run, load, h, Failing.error_bind, MonadExcept.ofExcept, run_bind, run_throw]

/-- What is said of an archive that cannot be loaded. -/
theorem readArchive_error {t : FileTree} {path : String} {f : DeployFault}
    (h : readArchive t path = .error f) : ∃ reason, f = .archive path reason := by
  unfold readArchive at h
  split at h
  next g => cases h; exact ⟨_, rfl⟩
  next bytes =>
    split at h
    next g => cases h; exact ⟨_, rfl⟩
    next spec => cases h

/-- A deployment whose archive can be loaded does not fail for its archive. -/
theorem DeployJob.run_of_readable {job : DeployJob} {t : FileTree} {spec : ApplicationSpec}
    (h : readArchive t job.archive = .ok spec) {md md' : Metadata} {path reason : String} :
    job.run t md ≠ .error (.archive path reason) md' := by
  intro hrun
  simp only [run, load, h, Failing.ok_bind, Failing.pure_eq, MonadExcept.ofExcept, run_bind,
    run_pure] at hrun
  split at hrun
  -- Past the loader, a failure is one of the gates or of storing, never of the archive.
  next d m' hv =>
    simp only [Deployable.store, EStateM.adaptExcept] at hrun
    split at hrun <;> cases hrun
  next f m' hv =>
    cases hrun
    simp only [Deployable.verify] at hv
    split at hv <;> cases hv

/-! ## What is found -/

/-- As long as no part of an upload was accepted, its archive reads as it did at first. -/
structure Untouched (s : Settings) (n : Nat) (path : String)
    (found : Except StorageFault (List UInt8)) (h : List Note) (m : SessionManager) : Prop where
  kept : Kept s h m
  known : n < m.uploads.length
  archive : ∀ a u, m.InProgress a n u → u.archive = path
  read : ∀ a u, m.InProgress a n u → partsOf n h = [] → m.plant.files.read path = found

namespace Untouched

variable {s : Settings} {n : Nat} {path : String} {found : Except StorageFault (List UInt8)}
  {h : List Note} {m m' : SessionManager} {e : Event} {notes : List Note}

/-- Every event keeps what an upload without a part found at its archive. -/
theorem step (hn : Path.isPlainName s.sessionFile = true) (hu : Untouched s n path found h m)
    (he : Effect m e m' notes) (hq : e.KeepsFiles) :
    Untouched s n path found (h ++ notes) m' := by
  have hk := hu.kept
  have hnew : n ≠ m.uploads.length := Nat.ne_of_lt hu.known
  refine ⟨hk.step hn he hq, Nat.lt_of_lt_of_le hu.known (hk.length_le he), fun b u hc => ?_,
    fun b u hc hp => ?_⟩
  · -- The path: an upload keeps it for life, and the number `n` is not given again.
    by_cases hb : e.Concerns b
    · cases he.origin hk.linked hq hb hc with
      | kept before => exact hu.archive b u before
      | new number => exact absurd number hnew
      | part v w bytes before may some written now => rw [now]; exact hu.archive b v before
      | complete v o k before may closed now => rw [now]; exact hu.archive b v before
    · have hsp := he.spares hk.linked hk.sited hn hk.working hb
      obtain ⟨v, hv⟩ := hk.linked.known (hsp.find.symm.trans hc.find)
      obtain rfl : v = u := Option.some.inj ((hsp.known n v hv).symm.trans hc.known)
      exact hu.archive b v hv
  · -- The bytes: without a part nothing is written there, not even when the upload is closed.
    rw [partsOf_append, List.append_eq_nil_iff] at hp
    by_cases hb : e.Concerns b
    · cases he.origin hk.linked hq hb hc with
      | kept before files => rw [files]; exact hu.read b u before hp.1
      | new number => exact absurd number hnew
      | part v w bytes before may some written now told => simp [told, partsOf] at hp
      | complete v o k before may closed now =>
        -- Without a part there is no writer, so there is nothing to flush.
        have hw : v.writer = none := by
          cases (hk.archives b n v before).2 with
          | untouched _ closed => exact closed
          | «open» _ _ some => simp [hp.1] at some
          | complete _ closed => exact closed
        rw [Upload.close, hw] at closed
        have hfiles : m.plant.files = m'.plant.files := (EStateM.Result.ok.inj closed).2
        rw [← hfiles]
        exact hu.read b v before hp.1
    · have hsp := he.spares hk.linked hk.sited hn hk.working hb
      obtain ⟨v, hv⟩ := hk.linked.known (hsp.find.symm.trans hc.find)
      obtain ⟨hsame, hreach'⟩ := hk.same_of_spared hsp hv
      have hreach := (hk.archives b n v hv).1
      obtain ⟨name, hname, -, harch⟩ := (hk.sited.placed n v hv.known).archive
      have hown := hk.linked.own hv
      rw [← hu.read b v hv hp.1, ← hu.archive b v hv, harch, hown]
      refine read_join_congr hname hreach hreach' ?_
      rwa [← Path.place_join _ hname, ← hown, ← harch]

/-- What an upload without a part found at its archive is kept over runs. -/
theorem after (hn : Path.isPlainName s.sessionFile = true) (hu : Untouched s n path found h m)
    {es : List Event} (hes : ∀ e ∈ es, e.KeepsFiles) :
    Untouched s n path found (h ++ m.journal es) (m.after es) :=
  after_induct (fun _ m e he hu => hu.step hn (effect e m) he) hes hu

end Untouched

/-! ## How the job ends -/

/-- A worker that is done with a job leaves it open. -/
theorem outstanding_finish (h : List Note) (job : Nat) (m : SessionManager) :
    outstanding (h ++ (Event.finish job).notes m) = outstanding h := by
  have he := effect (.finish job) m
  generalize (Event.finish job).notes m = notes at he
  generalize (Event.finish job).step m = m' at he
  cases he <;> rw [List.append_nil]

/-- A job that a worker is done with has ended, for the upload that asked for it. -/
theorem ended_of_finish {h : List Note} {m : SessionManager} {n : Nat} {k : Ticket}
    {r : DeployResult} (hl : Linked h m) (ho : (some n, k) ∈ outstanding h)
    (hr : ((Event.finish k.number).step m).ended? k.number = some r) :
    Ended n k r (h ++ (Event.finish k.number).notes m) ((Event.finish k.number).step m) := by
  have hl' := hl.step (effect (.finish k.number) m)
  rw [← outstanding_finish h k.number m] at ho
  have hself := hl'.of_outstanding ho
  refine ⟨hl', hl'.numbered k hself.1, hr, fun o ho' => ?_⟩
  obtain ⟨-, n', u, hn, hc, -⟩ := hself
  obtain ⟨-, n'', u', rfl, hc', -⟩ := hl'.of_outstanding ho'
  rw [(hc'.unique hc).1, hn]

/-- A worker that is done with the job has failed to load its archive and registered nothing, and
just that is noted in the upload, however much happens before. -/
def EndsUnloaded (m : SessionManager) (n : Nat) (k : Ticket) : Prop :=
  let m' := (Event.finish k.number).step m
  m'.plant.metadata = m.plant.metadata ∧
    ∃ reason, m'.ended? k.number = some (.error (.archive k.job.archive reason)) ∧
      ∀ es now, k ∈ (m'.after es).pending →
        ∃ u, ((Event.record k now).step (m'.after es)).uploads[n]? = some u ∧
          u.status = .failed ∧
          u.error = some (DeployFault.archive k.job.archive reason).message

/-- A job that a worker has ends unloaded if nothing can be loaded from its archive. -/
theorem endsUnloaded_iff {h : List Note} {m : SessionManager} {n : Nat} {k : Ticket}
    (hl : Linked h m) (ho : (some n, k) ∈ outstanding h) (hr : k ∈ m.plant.pool.running) :
    EndsUnloaded m n k ↔ ∀ spec, readArchive m.plant.files k.job.archive ≠ .ok spec := by
  obtain ⟨r, md, hrun, hstep, hended⟩ := hl.finish hr
  constructor
  · rintro ⟨-, reason, hend, -⟩ spec hspec
    rw [hended] at hend
    cases hend
    exact DeployJob.run_of_readable hspec hrun
  · intro hno
    cases hread : readArchive m.plant.files k.job.archive with
    | ok spec => exact absurd hread (hno spec)
    | error f =>
      -- Unreadable, the job ends at its first stage, and the record says so whenever it is written.
      obtain ⟨reason, rfl⟩ := readArchive_error hread
      rw [DeployJob.run_of_unreadable hread] at hrun
      cases r with
      | ok d => cases hrun
      | error f =>
        cases hrun
        refine ⟨by rw [hstep], reason, hended, fun es now hp => ?_⟩
        obtain ⟨u, hu⟩ := ((ended_of_finish hl ho hended).after es).recorded hp now
        exact ⟨_, hu, rfl, rfl⟩

/-- An upload without a part is deployed from what lay at its archive when it began: its job ends
unloaded exactly if nothing can be loaded from that. -/
theorem empty_upload_unloaded_iff (s : Settings) (hs : s.validate = .ok ()) (t : FileTree)
    (md : Metadata) (es es' : List Event) (quiet : ∀ e ∈ es ++ es', e.KeepsFiles)
    {a : Account} {n : Nat} {u : Upload} (begun : ((start s t md).after es).InProgress a n u)
    {k : Ticket} (finalized : (some n, k) ∈ outstanding ((start s t md).journal (es ++ es')))
    (empty : partsOf n ((start s t md).journal (es ++ es')) = [])
    (taken : k ∈ ((start s t md).after (es ++ es')).plant.pool.running) :
    EndsUnloaded ((start s t md).after (es ++ es')) n k ↔
      ∀ spec, readArchive ((start s t md).after es).plant.files u.archive ≠ .ok spec := by
  have hn := Settings.isPlainName_of_validate hs
  obtain ⟨hq, hq'⟩ := List.forall_mem_append.1 quiet
  have hk := (Kept.start s t md).after hn hq
  rw [List.nil_append] at hk
  -- From the moment the session begins until the job runs the path reads as it did at first.
  have hu : Untouched s n u.archive (((start s t md).after es).plant.files.read u.archive)
      ((start s t md).journal es) ((start s t md).after es) := by
    refine ⟨hk, (List.getElem?_eq_some_iff.1 begun.known).1, fun b v hc => ?_, fun _ _ _ _ => rfl⟩
    rw [Option.some.inj (hc.known.symm.trans begun.known)]
  have hu' := hu.after hn hq'
  rw [← journal_append, ← after_append] at hu'
  obtain ⟨-, n', v, hn', hc, -, hjob⟩ := hu'.kept.linked.of_outstanding finalized
  obtain rfl := Option.some.inj hn'
  have hpath : k.job.archive = u.archive := by
    rw [hjob]
    exact hu'.archive _ v hc
  have hread := hu'.read _ v hc empty
  rw [endsUnloaded_iff hu'.kept.linked finalized taken, hpath]
  simp only [readArchive, hread]

open Sample in
/-- In an empty directory nothing can be loaded. -/
theorem first_upload_unloaded : EndsUnloaded (service.after (begins 0 :: ends)) 0 ⟨0, job⟩ := by
  have begun : (service.after [begins 0]).InProgress account 0 (fresh 0) :=
    ⟨by decide +kernel, by rfl⟩
  have hno : (readArchive (service.after [begins 0]).plant.files job.archive).isOk = false := by
    decide +kernel
  refine (empty_upload_unloaded_iff settings rfl .empty .empty [begins 0] ends
    (by simp [begins, ends, Event.KeepsFiles]) begun (by decide +kernel) (by decide +kernel)
    (by decide +kernel)).2 fun spec hspec => ?_
  rw [service, show job.archive = (fresh 0).archive from rfl, hspec] at hno
  cases hno

open Sample in
/-- What was deployed before can be loaded, and it is deployed again. -/
theorem leftover_is_deployed :
    let es := deploys ++ begins 1 :: ends
    ((some 1, ⟨1, job⟩) ∈ outstanding (service.journal es) ∧
      partsOf 1 (service.journal es) = [] ∧ ⟨1, job⟩ ∈ (service.after es).plant.pool.running) ∧
    ¬ EndsUnloaded (service.after es) 1 ⟨1, job⟩ := by
  intro es
  refine ⟨by decide +kernel, ?_⟩
  rintro ⟨-, reason, hend, -⟩
  have hok : (((Event.finish 1).step (service.after es)).ended? 1).any Except.isOk = true := by
    decide +kernel
  rw [hend] at hok
  cases hok

end Deployment
