import Deployment.Proofs.Session.Event

/-! # What events do

Each event either leaves the manager as it is or does one of few things to it. Whatever holds
along runs is shown case by case for these.

* **`Upload.close`** — what is left of the archive is written.
* **`Pool.Works`** — workers go on with the jobs of a pool.
* **`Effect`** — what an event does and what is told of it.
* **`effect`** — every event has one of these effects. -/

namespace Deployment

open Stateful

namespace Upload

/-- Write what is left of the archive. -/
def close (u : Upload) : Files Unit :=
  match u.writer with
  | none => pure ()
  | some w => w.close

/-- The upload has received a part. -/
def receiving (u : Upload) (w : Writer) : Upload :=
  { u with writer := some w, status := .uploading }

/-- The upload waits for its deployment. -/
def waiting (u : Upload) : Upload := { u with status := .verifying, writer := none }

/-- The upload receives nothing more. -/
def thrownAway (u : Upload) : Upload := { u with writer := none }

/-- The upload has failed before its deployment was accepted. -/
def failedFor (u : Upload) (reason : String) : Upload :=
  { u.waiting with status := .failed, error := some reason }

/-- The upload has ended with its deployment. -/
def endedWith (u : Upload) (r : DeployResult) : Upload :=
  { u with status := (SessionManager.outcome r).1, error := (SessionManager.outcome r).2 }

end Upload

/-! ## The pool -/

namespace Pool

/-- A job that is over: no worker has it, and it does not wait. -/
def Settled (p : Pool) (number : Nat) : Prop := ∀ t ∈ p.unfinished, t.number ≠ number

/-- What became of a job that is over is told by the results alone. -/
theorem state_of_settled {p : Pool} {number : Nat} (h : p.Settled number) :
    p.state number = match Keyed.find? number p.results with
      | some r => .finished r
      | none => .lost := by
  have : (p.unfinished.any fun t => t.number = number) = false := by
    rw [List.any_eq_false]
    intro t ht
    simpa using h t ht
  rw [state, this]
  rfl

/-- A job of which it is known what became of it is over. -/
theorem settled_of_state {p : Pool} {number : Nat} (h : p.state number ≠ .pending) :
    p.Settled number := by
  intro t ht hn
  have : (p.unfinished.any fun t => t.number = number) = true :=
    List.any_eq_true.2 ⟨t, ht, by simpa using hn⟩
  rw [state, this] at h
  exact h rfl

/-- Workers go on with the jobs of a pool: none comes, and none that is left was changed. What
became of a job stays so. -/
structure Works (p p' : Pool) : Prop where
  unfinished : p'.unfinished.Sublist p.unfinished
  queue : p'.queue.length ≤ p.queue.length
  submitted : p'.stats.submitted = p.stats.submitted
  results : ∀ number, p.Settled number →
    Keyed.find? number p'.results = Keyed.find? number p.results

/-- Workers that do nothing go on. -/
theorem Works.refl (p : Pool) : Works p p := ⟨.refl _, Nat.le_refl _, rfl, fun _ _ => rfl⟩

/-- Workers go on when the pool is closed. -/
theorem works_close (p : Pool) : Works p p.close :=
  ⟨.refl _, Nat.le_refl _, rfl, fun _ _ => rfl⟩

/-- Workers go on when one takes a job. -/
theorem works_take (p : Pool) : Works p p.take := by
  unfold take
  split
  next t rest hq =>
    split
    · exact ⟨by simp [unfinished, hq], by simp [hq], rfl, fun _ _ => rfl⟩
    · exact .refl p
  next => exact .refl p

/-- A worker that has a job is done with it. -/
theorem works_finish {p : Pool} {number : Nat} {job : DeployJob}
    (h : p.runningJob? number = some job) (r : DeployResult) : Works p (p.finish number r) where
  unfinished := List.filter_sublist.append_right p.queue
  queue := Nat.le_refl _
  submitted := by cases r <;> rfl
  results k hk := by
    obtain ⟨t, ht, -⟩ := Option.map_eq_some_iff.1 h
    have hn : t.number = number := by simpa using List.find?_some ht
    have hne : number ≠ k :=
      hn ▸ hk t (List.mem_append_left p.queue (List.mem_of_find?_eq_some ht))
    exact (Keyed.find?_put number k r p.results).trans (if_neg hne)

/-- Workers go on when one of them crashes, and so do the results that were given. -/
theorem works_crash (p : Pool) (number : Nat) : Works p (p.crash number) where
  unfinished := by
    refine List.Sublist.append List.filter_sublist ?_
    simp only [crash]
    split
    · exact List.nil_sublist _
    · exact .refl _
  queue := by
    simp only [crash]
    split
    · exact Nat.zero_le _
    · exact Nat.le_refl _
  submitted := rfl
  results _ _ := rfl

/-- A job that is accepted comes to the end of the queue. -/
theorem submit_ok {job : DeployJob} {p p' : Pool} {number : Nat}
    (h : submit job p = .ok number p') :
    number = p.stats.submitted ∧ p'.queue = p.queue ++ [⟨number, job⟩] ∧
      p'.running = p.running ∧ p'.results = p.results ∧ p'.stats.submitted = number + 1 := by
  unfold submit at h
  simp only at h
  split at h
  · cases h
  · split at h <;> cases h
    exact ⟨rfl, rfl, rfl, rfl, rfl⟩

/-- A job that is refused leaves the others alone. -/
theorem submit_error {job : DeployJob} {p p' : Pool} {f : DeployFault}
    (h : submit job p = .error f p') : Works p p' ∧ p'.queue = p.queue := by
  unfold submit at h
  simp only at h
  split at h
  · cases h; exact ⟨.refl _, rfl⟩
  · split at h <;> cases h
    exact ⟨⟨.refl _, Nat.le_refl _, rfl, fun _ _ => rfl⟩, rfl⟩

end Pool

/-! ## The effects -/

namespace SessionManager

/-- The account begins an upload. -/
def begin (a : Account) (u : Upload) (m : SessionManager) : SessionManager :=
  { m with uploads := m.uploads ++ [u], live := Keyed.put a m.uploads.length m.live }

/-- The upload of a number becomes another. -/
def put (n : Nat) (u : Upload) (m : SessionManager) : SessionManager :=
  { m with uploads := m.uploads.set n u }

/-- To change an upload that there is comes to putting the changed one in its place. -/
theorem update_eq_put {m : SessionManager} {n : Nat} {u : Upload} (h : m.uploads[n]? = some u)
    (change : Upload → Upload) : update n change m = put n (change u) m := by
  have : m.uploads.modify n change = m.uploads.set n (change u) := by
    apply List.ext_getElem?
    intro i
    rw [List.getElem?_modify, List.getElem?_set]
    by_cases hi : n = i
    · subst hi
      obtain ⟨hl, hu⟩ := List.getElem?_eq_some_iff.1 h
      simp [hl, hu]
    · simp [hi]
  simp [update, put, this]

/-- What holds of all uploads holds still when one becomes another of which it holds. -/
theorem forall_put {P : Upload → Prop} {m : SessionManager}
    (h : ∀ (k : Nat) (w : Upload), m.uploads[k]? = some w → P w) (n : Nat) {v : Upload} (hv : P v) :
    ∀ (k : Nat) (w : Upload), (m.put n v).uploads[k]? = some w → P w := by
  intro k w hw
  simp only [put, List.getElem?_set] at hw
  split at hw
  · split at hw
    · exact Option.some.inj hw ▸ hv
    · cases hw
  · exact h k w hw

/-- What holds of all uploads holds still when another begins of which it holds. -/
theorem forall_begin {P : Upload → Prop} {m : SessionManager}
    (h : ∀ (k : Nat) (w : Upload), m.uploads[k]? = some w → P w) {v : Upload} (hv : P v) :
    ∀ (k : Nat) (w : Upload), (m.uploads ++ [v])[k]? = some w → P w := by
  intro k w hw
  rw [List.getElem?_append] at hw
  split at hw
  · exact h k w hw
  · exact List.mem_singleton.1 (List.mem_of_getElem? hw) ▸ hv

/-- An upload that there is stays when another begins. -/
theorem known_begin {m : SessionManager} {v : Upload} {k : Nat} (hv : m.uploads[k]? = some v)
    (u : Upload) : (m.uploads ++ [u])[k]? = some v := by
  obtain ⟨hk, -⟩ := List.getElem?_eq_some_iff.1 hv
  exact (List.getElem?_append_left hk).trans hv

/-- Saving a record changes the files. -/
theorem persist_eq {m : SessionManager} {n : Nat} {u : Upload} (h : m.uploads[n]? = some u)
    (now : Timestamp) : persist n now m =
      m.withFiles (finalState (m.records.save (u.record now)) m.plant.files) := by
  simp only [persist, finalState, h]
  cases m.records.save (u.record now) m.plant.files <;> rfl

end SessionManager

open SessionManager in
/-- What an event does to the manager, and what is told of it. -/
inductive Effect (m : SessionManager) : Event → SessionManager → List Note → Prop where
  | nothing (e : Event) : Effect m e m []
  | registered {a : Account} {info : ResourceInfo} {requester : String} {id : Ulid}
      {now : Timestamp} {u : Upload} {t : FileTree}
      (valid : a.isValid = true) (plain : Path.isPlainName info.fileName = true)
      (free : m.settings.isReserved info.fileName = false) (idle : m.find? a = none)
      (new : u = m.newUpload a info requester id now)
      (made : Files.createDirectories (m.settings.accountDirectory a) m.plant.files = .ok () t) :
      Effect m (.register a info requester id now)
        (withFiles t (begin a u m)) []
  | unprepared {a : Account} {info : ResourceInfo} {requester : String} {id : Ulid}
      {now : Timestamp} {u : Upload} {t : FileTree} {f : StorageFault}
      (valid : a.isValid = true) (plain : Path.isPlainName info.fileName = true)
      (free : m.settings.isReserved info.fileName = false) (idle : m.find? a = none)
      (new : u = m.newUpload a info requester id now)
      (made : Files.createDirectories (m.settings.accountDirectory a) m.plant.files =
        .error f t) :
      Effect m (.register a info requester id now)
        (unlink a (withFiles t (begin a u m))) []
  | accepted {a : Account} {bytes : List UInt8} {n : Nat} {u : Upload} {w : Writer} {t : FileTree}
      (current : m.InProgress a n u) (may : u.status.allows .uploading = true)
      (some : bytes ≠ []) (written : u.write bytes m.plant.files = .ok w t) :
      Effect m (.append a bytes) (withFiles t (put n (u.receiving w) m)) [.accepted n bytes]
  | discarded {a : Account} {bytes : List UInt8} {n : Nat} {u : Upload} {t : FileTree}
      (current : m.InProgress a n u) (may : u.status.allows .uploading = true)
      (left : t = m.plant.files ∨ ∃ f, u.write bytes m.plant.files = .error f t) :
      Effect m (.append a bytes)
        (withFiles (finalState (Files.remove u.archive) t)
          (unlink u.account (put n u.thrownAway m))) []
  | submitted {a : Account} {now : Timestamp} {n : Nat} {u : Upload} {t : FileTree} {p : Pool}
      {number : Nat} (current : m.InProgress a n u) (may : u.status.allows .verifying = true)
      (closed : u.close m.plant.files = .ok () t)
      (taken : Pool.submit u.job m.plant.pool = .ok number p) :
      Effect m (.finalize a now)
        { withPool p (withFiles t (put n u.waiting m)) with
          pending := m.pending ++ [⟨number, u.job⟩] }
        [.submitted (m.find? u.account) ⟨number, u.job⟩]
  | failed {a : Account} {now : Timestamp} {n : Nat} {u : Upload} {t : FileTree} {p : Pool}
      {reason : String} (current : m.InProgress a n u) (may : u.status.allows .verifying = true)
      (left : t = finalState u.close m.plant.files)
      (pool : m.plant.pool.Works p) (queue : p.queue = m.plant.pool.queue) :
      Effect m (.finalize a now)
        (unlink u.account (withFiles
          (finalState (m.records.save ((u.failedFor reason).record now)) t)
          (withPool p (put n (u.failedFor reason) m)))) []
  | worked {e : Event} {p : Pool} {md : Metadata} (pool : m.plant.pool.Works p) :
      Effect m e { m with plant := { m.plant with pool := p, metadata := md } } []
  | recorded {t : Ticket} {now : Timestamp} {n : Nat} {u : Upload} {r : DeployResult}
      (pending : t ∈ m.pending) (ended : m.ended? t.number = some r)
      (current : m.InProgress t.job.account n u) :
      Effect m (.record t now)
        { unlink t.job.account (withFiles
            (finalState (m.records.save ((u.endedWith r).record now)) m.plant.files)
            (put n (u.endedWith r) m)) with
          pending := m.pending.filter (· ≠ t) }
        [.recorded t r]
  | recordedNowhere {t : Ticket} {now : Timestamp} {r : DeployResult}
      (pending : t ∈ m.pending) (ended : m.ended? t.number = some r)
      (nobody : ∀ n u, ¬ m.InProgress t.job.account n u) :
      Effect m (.record t now)
        { complete t.job.account r now m with pending := m.pending.filter (· ≠ t) }
        [.recorded t r]
  | files (t : FileTree) : Effect m (.files t) (m.withFiles t) []
  | outage (saveDown loadDown : Bool) :
      Effect m (.outage saveDown loadDown)
        { m with records := { m.records with saveDown := saveDown, loadDown := loadDown } } []

/-! ## What each request does -/

namespace SessionManager

variable {m : SessionManager} {a : Account}

/-- A change of the files that succeeds is made. -/
theorem attempt_of_ok {α : Type} {x : Files α} {v : α} {t : FileTree}
    (h : x m.plant.files = .ok v t) : attempt x m = .ok (.ok v) (m.withFiles t) := by
  simp only [attempt, h, withFiles]

/-- A change of the files that fails leaves what it has done, and its fault is given. -/
theorem attempt_of_error {α : Type} {x : Files α} {f : StorageFault} {t : FileTree}
    (h : x m.plant.files = .error f t) : attempt x m = .ok (.error f) (m.withFiles t) := by
  simp only [attempt, h, withFiles]

/-- An account that has an upload finds its number. -/
theorem handle_of_find {n : Nat} (h : m.find? a = some n) : handle a m = .ok n m := by
  simp only [handle, run_bind, run_get, h, run_pure]

/-- An account that has none is told so. -/
theorem handle_of_idle (h : m.find? a = none) : handle a m = .error (.noSession a) m := by
  simp only [handle, run_bind, run_get, h, run_throw]

/-- An upload that there is is found by its number. -/
theorem upload_of_known {n : Nat} {u : Upload} (h : m.uploads[n]? = some u) :
    upload n a m = .ok u m := by
  simp only [upload, run_bind, run_get, h, run_pure]

/-- There is none of a number that was not given. -/
theorem upload_of_unknown {n : Nat} (h : m.uploads[n]? = none) :
    upload n a m = .error (.noSession a) m := by
  simp only [upload, run_bind, run_get, h, run_throw]

/-- A registration is refused, or its names are good and the account had no upload. -/
theorem enter_cases (m : SessionManager) (a : Account) (info : ResourceInfo) (requester : String)
    (id : Ulid) (now : Timestamp) :
    (∃ f, f.isClientFault = true ∧ enter a info requester id now m = .error f m) ∨
      (a.isValid = true ∧ Path.isPlainName info.fileName = true ∧
        m.settings.isReserved info.fileName = false ∧ m.find? a = none ∧
        enter a info requester id now m = .ok (m.newUpload a info requester id now)
          (begin a (m.newUpload a info requester id now) m)) := by
  -- The checks in the order in which they are made: the account, the file name, the session.
  cases hv : a.isValid with
  | false =>
    refine .inl ⟨.badRequest ("invalid account id '" ++ a.name ++ "'"), rfl, ?_⟩
    simp only [enter, requireValid, run_bind, hv, Bool.false_eq_true, if_false, run_throw]
  | true =>
    have hreq : requireValid a m = .ok () m := by
      simp only [requireValid, hv, if_true, run_pure]
    cases hn : !Path.isPlainName info.fileName || m.settings.isReserved info.fileName with
    | true =>
      refine .inl ⟨.badRequest ("invalid archive file name '" ++ info.fileName ++ "'"), rfl, ?_⟩
      simp only [enter, run_bind, hreq, run_get, run_ite, run_throw, hn, if_true]
    | false =>
      cases hl : m.hasSession a with
      | true =>
        refine .inl ⟨.conflict a, rfl, ?_⟩
        simp only [enter, run_bind, hreq, run_get, run_ite, run_throw, hn, hl, if_true,
          Bool.false_eq_true, if_false]
      | false =>
        simp only [Bool.or_eq_false_iff, Bool.not_eq_eq_eq_not, Bool.not_false] at hn
        refine .inr ⟨rfl, hn.1, hn.2, by simpa [hasSession] using hl, ?_⟩
        simp only [enter, run_bind, hreq, run_get, run_ite, hn, hl, run_pure,
          run_modify, Bool.not_true, Bool.or_self, Bool.false_eq_true, if_false]
        rfl

/-- The directory of an account is made. -/
theorem prepare_of_ok {t : FileTree}
    (h : Files.createDirectories (m.settings.accountDirectory a) m.plant.files = .ok () t) :
    prepare a m = .ok () (m.withFiles t) := by
  simp only [prepare, run_bind, run_get, attempt_of_ok h]
  rfl

/-- If the directory cannot be made, the account loses the upload that it began. -/
theorem prepare_of_error {t : FileTree} {f : StorageFault}
    (h : Files.createDirectories (m.settings.accountDirectory a) m.plant.files = .error f t) :
    prepare a m = .error (.storage a f) (unlink a (m.withFiles t)) := by
  simp only [prepare, run_bind, run_get, attempt_of_error h]
  rfl

/-- What a registration does is one of the effects. -/
theorem effect_register (m : SessionManager) (a : Account) (info : ResourceInfo)
    (requester : String) (id : Ulid) (now : Timestamp) :
    Effect m (.register a info requester id now)
      (finalState (register a info requester id now) m) [] := by
  obtain ⟨f, -, he⟩ | ⟨hv, hn, hr, hi, he⟩ := enter_cases m a info requester id now
  · have hrefused : register a info requester id now m = .error f m := by
      simp only [register, run_bind, he]
    rw [finalState_of_error hrefused]
    exact .nothing _
  · -- The session is opened before its directory is made, so both ends start from `begin`.
    have hlast : finalState (register a info requester id now) m =
        finalState (prepare a) (begin a (m.newUpload a info requester id now) m) := by
      simp only [register, finalState, run_bind, he]
      cases prepare a _ <;> rfl
    rw [hlast]
    cases hd : Files.createDirectories (m.settings.accountDirectory a) m.plant.files with
    | ok _ t =>
      rw [finalState_of_ok (prepare_of_ok (m := begin a _ m) hd)]
      exact .registered hv hn hr hi rfl hd
    | error f t =>
      rw [finalState_of_error (prepare_of_error (m := begin a _ m) hd)]
      exact .unprepared hv hn hr hi rfl hd

/-- The archive of an upload is taken away if it can be; a fault of that is not told. -/
@[simp] theorem removeArchive_eq (u : Upload) (m : SessionManager) : removeArchive u m =
    .ok () (withFiles (finalState (Files.remove u.archive) m.plant.files) m) := by
  cases hr : Files.remove u.archive m.plant.files with
  | ok _ t =>
    rw [finalState_of_ok hr]
    simp only [removeArchive, Functor.discard, Functor.mapConst, EStateM.map, Function.comp_apply,
      attempt_of_ok hr]
  | error f t =>
    rw [finalState_of_error hr]
    simp only [removeArchive, Functor.discard, Functor.mapConst, EStateM.map, Function.comp_apply,
      attempt_of_error hr]

/-- An upload is thrown away with its archive. -/
theorem abandon_eq {n : Nat} {u : Upload} (h : m.uploads[n]? = some u) :
    abandon n u m = .ok ()
      (withFiles (finalState (Files.remove u.archive) m.plant.files)
        (unlink u.account (put n u.thrownAway m))) := by
  have hu : update n (fun u => { u with writer := none }) m = put n u.thrownAway m :=
    update_eq_put h _
  simp only [abandon, run_bind, run_modify, removeArchive_eq, hu]
  rfl

/-- An empty part throws its upload away. -/
theorem appendTo_of_empty {n : Nat} {u : Upload} (h : m.uploads[n]? = some u)
    (ha : u.status.allows .uploading = true) :
    appendTo n a [] m = .error (.badRequest "invalid chunk received")
      (withFiles (finalState (Files.remove u.archive) m.plant.files)
        (unlink u.account (put n u.thrownAway m))) := by
  simp only [appendTo, run_bind, upload_of_known h, allow, ha, if_true, run_pure,
    List.isEmpty_nil, abandon_eq h, run_throw]

/-- A part that can be written is received. -/
theorem appendTo_of_written {n : Nat} {u : Upload} {bytes : List UInt8} {w : Writer}
    {t : FileTree} (h : m.uploads[n]? = some u) (ha : u.status.allows .uploading = true)
    (hb : bytes.isEmpty = false) (hw : u.write bytes m.plant.files = .ok w t) :
    appendTo n a bytes m = .ok () (withFiles t (put n (u.receiving w) m)) := by
  simp only [appendTo, run_bind, upload_of_known h, allow, ha, if_true, run_pure, hb,
    Bool.false_eq_true, if_false, attempt_of_ok hw, run_modify]
  rw [update_eq_put (m := m.withFiles t) h]
  rfl

/-- A part that cannot be written throws its upload away. -/
theorem appendTo_of_fault {n : Nat} {u : Upload} {bytes : List UInt8} {f : StorageFault}
    {t : FileTree} (h : m.uploads[n]? = some u) (ha : u.status.allows .uploading = true)
    (hb : bytes.isEmpty = false) (hw : u.write bytes m.plant.files = .error f t) :
    appendTo n a bytes m = .error (.storage a f)
      (withFiles (finalState (Files.remove u.archive) t)
        (unlink u.account (put n u.thrownAway m))) := by
  have hab := abandon_eq (m := m.withFiles t) h
  simp only [appendTo, run_bind, upload_of_known h, allow, ha, if_true, run_pure, hb,
    Bool.false_eq_true, if_false, attempt_of_error hw, hab, run_throw]
  rfl

/-- What a part does is one of the effects. -/
theorem effect_append (m : SessionManager) (a : Account) (bytes : List UInt8) :
    Effect m (.append a bytes) (finalState (append a bytes) m)
      (Event.parts (.append a bytes) m) := by
  cases hf : m.find? a with
  | none =>
    have h : append a bytes m = .error (.noSession a) m := by
      simp only [append, run_bind, handle_of_idle hf]
    rw [finalState_of_error h]
    simp only [Event.parts, h]
    exact .nothing _
  | some n =>
    have happ : append a bytes m = appendTo n a bytes m := by
      simp only [append, run_bind, handle_of_find hf]
    simp only [Event.parts, finalState, happ, hf]
    cases hu : m.uploads[n]? with
    | none =>
      simp only [appendTo, run_bind, upload_of_unknown hu]
      exact .nothing _
    | some u =>
      cases ha : u.status.allows .uploading with
      | false =>
        simp only [appendTo, run_bind, upload_of_known hu, allow, ha, Bool.false_eq_true,
          if_false, run_throw]
        exact .nothing _
      | true =>
        -- The upload is there and may receive: an empty part throws it away, any other is written.
        cases bytes with
        | nil =>
          rw [appendTo_of_empty hu ha]
          exact .discarded ⟨hf, hu⟩ ha (.inl rfl)
        | cons b bytes =>
          cases hw : u.write (b :: bytes) m.plant.files with
          | ok w t =>
            rw [appendTo_of_written hu ha rfl hw]
            exact .accepted ⟨hf, hu⟩ ha (by simp) hw
          | error f t =>
            rw [appendTo_of_fault hu ha rfl hw]
            exact .discarded ⟨hf, hu⟩ ha (.inr ⟨f, hw⟩)

/-- An upload that fails at once is recorded. -/
theorem failNow_eq {n : Nat} {u : Upload} (h : m.uploads[n]? = some u) (v : Upload)
    (reason : String) (now : Timestamp) :
    failNow n v reason now m = .ok ()
      (unlink v.account (withFiles
        (finalState (m.records.save
          ({ u with status := .failed, error := some reason }.record now)) m.plant.files)
        (put n { u with status := .failed, error := some reason } m))) := by
  have hu : update n (fun u => { u with status := .failed, error := some reason }) m =
      put n { u with status := .failed, error := some reason } m := update_eq_put h _
  have hn : (put n { u with status := .failed, error := some reason } m).uploads[n]? =
      some { u with status := .failed, error := some reason } := by
    obtain ⟨hl, -⟩ := List.getElem?_eq_some_iff.1 h
    simp [put, hl]
  simp only [failNow, run_bind, run_modify, hu, persist_eq hn]
  rfl

/-- A job that the pool takes has its number. -/
theorem submit_of_ok {job : DeployJob} {number : Nat} {p : Pool}
    (h : Pool.submit job m.plant.pool = .ok number p) :
    submit job m = .ok (.ok number) (m.withPool p) := by
  simp only [submit, Plant.submit, h, withPool]

/-- A job that the pool refuses has its fault. -/
theorem submit_of_error {job : DeployJob} {f : DeployFault} {p : Pool}
    (h : Pool.submit job m.plant.pool = .error f p) :
    submit job m = .ok (.error f) (m.withPool p) := by
  simp only [submit, Plant.submit, h, withPool]

/-- A job that the pool takes waits for its end. -/
theorem requestDeploy_of_taken {n : Nat} {u : Upload} {now : Timestamp} {number : Nat} {p : Pool}
    (h : Pool.submit u.job m.plant.pool = .ok number p) :
    requestDeploy n u now m = .ok ⟨u.resource, number⟩
      { withPool p m with pending := m.pending ++ [⟨number, u.job⟩] } := by
  simp only [requestDeploy, run_bind, submit_of_ok h]
  rfl

/-- If the pool refuses the job the upload fails. -/
theorem requestDeploy_of_refused {n : Nat} {u : Upload} {now : Timestamp} {f : DeployFault}
    {p : Pool} (h : Pool.submit u.job m.plant.pool = .error f p) :
    requestDeploy n u now m =
      .error (.deploy f) (finalState (failNow n u f.message now) (withPool p m)) := by
  simp only [requestDeploy, run_bind, submit_of_error h, run_throw, finalState]
  cases hf : failNow n u f.message now (withPool p m) with
  | ok _ m' => rfl
  | error g m' => simp [failNow, run_bind, run_modify] at hf

/-- Once the archive is closed the deployment is asked for. -/
theorem finalizeAt_of_closed {n : Nat} {u : Upload} {now : Timestamp} {t : FileTree}
    (h : m.uploads[n]? = some u) (ha : u.status.allows .verifying = true)
    (hc : u.close m.plant.files = .ok () t) :
    finalizeAt n a now m = requestDeploy n u now (withFiles t (put n u.waiting m)) := by
  have hu : update n (fun u => { u with status := .verifying, writer := none }) m =
    put n u.waiting m := update_eq_put h _
  -- Without a writer closing does nothing, and the files are as they were.
  cases hw : u.writer with
  | none =>
    simp only [Upload.close, hw, run_pure] at hc
    cases hc
    simp only [finalizeAt, run_bind, upload_of_known h, allow, ha, if_true, run_pure,
      run_modify, hu, hw]
    rfl
  | some w =>
    simp only [Upload.close, hw] at hc
    simp only [finalizeAt, run_bind, upload_of_known h, allow, ha, if_true, run_pure,
      run_modify, hu, hw, attempt_of_ok (m := put n u.waiting m) hc]

/-- If the archive cannot be closed the upload fails. -/
theorem finalizeAt_of_fault {n : Nat} {u : Upload} {now : Timestamp} {t : FileTree}
    {f : StorageFault} (h : m.uploads[n]? = some u) (ha : u.status.allows .verifying = true)
    (hc : u.close m.plant.files = .error f t) :
    finalizeAt n a now m = .error (.storage a f)
      (finalState (failNow n u f.message now) (withFiles t (put n u.waiting m))) := by
  have hu : update n (fun u => { u with status := .verifying, writer := none }) m =
    put n u.waiting m := update_eq_put h _
  cases hw : u.writer with
  | none => simp [Upload.close, hw, run_pure] at hc
  | some w =>
    simp only [Upload.close, hw] at hc
    simp only [finalizeAt, run_bind, upload_of_known h, allow, ha, if_true, run_pure,
      run_modify, hu, hw, attempt_of_error (m := put n u.waiting m) hc, run_throw, finalState]
    cases hf : failNow n u f.message now (withFiles t (put n u.waiting m)) with
    | ok _ m'' => rfl
    | error g m'' => simp [failNow, run_bind, run_modify] at hf

/-- The upload is noted as failed, over the files that closing it left. -/
theorem finalState_failNow {n : Nat} {u : Upload} {now : Timestamp} {t : FileTree} {p : Pool}
    {reason : String} (h : m.uploads[n]? = some u) :
    finalState (failNow n u reason now) (withPool p (withFiles t (put n u.waiting m))) =
      unlink u.account (withFiles
        (finalState (m.records.save ((u.failedFor reason).record now)) t)
        (withPool p (put n (u.failedFor reason) m))) := by
  obtain ⟨hl, -⟩ := List.getElem?_eq_some_iff.1 h
  have hn : (withPool p (withFiles t (put n u.waiting m))).uploads[n]? = some u.waiting := by
    simp [withPool, withFiles, put, hl]
  rw [finalState_of_ok (failNow_eq hn u reason now)]
  simp only [put, withPool, withFiles, List.set_set]
  rfl

/-- What the end of an upload does to an upload that there is: it is refused, or a job is accepted,
or the upload fails at once. -/
theorem finalizeAt_cases {n : Nat} {u : Upload} (h : m.uploads[n]? = some u) (a : Account)
    (now : Timestamp) :
    (u.status.allows .verifying = false ∧
        ∃ f, f.isClientFault = true ∧ finalizeAt n a now m = .error f m) ∨
      u.status.allows .verifying = true ∧
        ((∃ t p number, u.close m.plant.files = .ok () t ∧
            Pool.submit u.job m.plant.pool = .ok number p ∧
            finalizeAt n a now m = .ok ⟨u.resource, number⟩
              { withPool p (withFiles t (put n u.waiting m)) with
                pending := m.pending ++ [⟨number, u.job⟩] }) ∨
          ∃ f reason t p, f.isClientFault = false ∧ f.causes.head? = some reason ∧
            t = finalState u.close m.plant.files ∧ m.plant.pool.Works p ∧
            p.queue = m.plant.pool.queue ∧
            finalizeAt n a now m = .error f
              (unlink u.account (withFiles
                (finalState (m.records.save ((u.failedFor reason).record now)) t)
                (withPool p (put n (u.failedFor reason) m))))) := by
  cases ha : u.status.allows .verifying with
  | false =>
    refine .inl ⟨rfl, .badRequest (u.status.refusal .verifying), rfl, ?_⟩
    simp only [finalizeAt, run_bind, upload_of_known h, allow, ha, Bool.false_eq_true, if_false,
      run_throw]
  | true =>
    refine .inr ⟨rfl, ?_⟩
    -- Two things can go wrong, one after the other: closing the writer and handing in the job.
    cases hc : u.close m.plant.files with
    | error f t =>
      refine .inr ⟨.storage a f, f.message, t, m.plant.pool, rfl, rfl,
        (finalState_of_error hc).symm, .refl _, rfl, ?_⟩
      rw [finalizeAt_of_fault h ha hc, ← @finalState_failNow m n u now t m.plant.pool f.message h]
      rfl
    | ok _ t =>
      have hclosed : finalizeAt n a now m = _ := finalizeAt_of_closed h ha hc
      cases hp : Pool.submit u.job m.plant.pool with
      | error f p =>
        rw [requestDeploy_of_refused (m := withFiles t (put n u.waiting m)) hp] at hclosed
        obtain ⟨hworks, hq⟩ := Pool.submit_error hp
        refine .inr ⟨.deploy f, f.message, t, p, rfl, rfl, (finalState_of_ok hc).symm, hworks, hq,
          ?_⟩
        rw [hclosed, finalState_failNow h]
      | ok number p =>
        rw [requestDeploy_of_taken (m := withFiles t (put n u.waiting m)) hp] at hclosed
        exact .inl ⟨t, p, number, rfl, rfl, hclosed⟩

/-- What the end of an upload does is one of the effects. -/
theorem effect_finalize (m : SessionManager) (a : Account) (now : Timestamp) :
    Effect m (.finalize a now) (finalState (finalize a now) m)
      (Event.jobs (.finalize a now) m) := by
  -- A job was handed in if and only if the queue has grown; where it has not, nothing is noted.
  have hnone : ∀ {m'}, finalState (finalize a now) m = m' →
      m'.plant.pool.queue = m.plant.pool.queue → Event.jobs (.finalize a now) m = [] := by
    intro m' hm hq
    simp [Event.jobs, Event.step, hm, hq]
  have hrefused : ∀ {f}, finalize a now m = .error f m →
      Effect m (.finalize a now) (finalState (finalize a now) m)
        (Event.jobs (.finalize a now) m) := by
    intro f h
    have h := finalState_of_error h
    rw [hnone h rfl, h]
    exact .nothing _
  cases hf : m.find? a with
  | none =>
    refine hrefused (f := .noSession a) ?_
    simp only [finalize, run_bind, handle_of_idle hf]
  | some n =>
    have hfin : finalize a now m = finalizeAt n a now m := by
      simp only [finalize, run_bind, handle_of_find hf]
    cases hu : m.uploads[n]? with
    | none =>
      refine hrefused (f := .noSession a) ?_
      simp only [hfin, finalizeAt, run_bind, upload_of_unknown hu]
    | some u =>
      rcases finalizeAt_cases hu a now with ⟨-, f, -, h⟩ |
        ⟨ha, ⟨t, p, number, hc, hp, h⟩ | ⟨f, reason, t, p, -, -, ht, hworks, hq, h⟩⟩
      · exact hrefused (hfin.trans h)
      · have h := finalState_of_ok (hfin.trans h)
        have hj : Event.jobs (.finalize a now) m =
            [.submitted (m.find? u.account) ⟨number, u.job⟩] := by
          simp [Event.jobs, Event.step, h, withPool, (Pool.submit_ok hp).2.1, Upload.job]
        rw [hj, h]
        exact .submitted ⟨hf, hu⟩ ha hc hp
      · have h := finalState_of_error (hfin.trans h)
        rw [hnone h hq, h]
        exact .failed ⟨hf, hu⟩ ha ht hworks hq

/-- The end of a deployment is noted in the upload of its account. -/
theorem complete_of_current {n : Nat} {u : Upload} {r : DeployResult} {now : Timestamp}
    (h : m.InProgress a n u) :
    complete a r now m =
      unlink a (withFiles (finalState (m.records.save ((u.endedWith r).record now)) m.plant.files)
        (put n (u.endedWith r) m)) := by
  have hu : update n (fun u => { u with status := (outcome r).1, error := (outcome r).2 }) m =
    put n (u.endedWith r) m := update_eq_put h.known _
  have hn : (put n (u.endedWith r) m).uploads[n]? = some (u.endedWith r) := by
    obtain ⟨hl, -⟩ := List.getElem?_eq_some_iff.1 h.known
    simp [put, hl]
  simp only [complete, h.find, completeAt, hu, persist_eq hn]
  rfl

/-- What it does that the end of a job is noted is one of the effects. -/
theorem effect_record (m : SessionManager) (t : Ticket) (now : Timestamp) :
    Effect m (.record t now) (Event.step (.record t now) m) (Event.ends (.record t now) m) := by
  simp only [Event.step, Event.ends, noteEnd]
  by_cases ht : t ∈ m.pending
  · rw [if_pos ht, if_pos ht]
    cases he : m.ended? t.number with
    | none => exact .nothing _
    | some r =>
      -- Once the job is done, what is written depends on whether its account is still in progress.
      by_cases hc : ∃ n u, m.InProgress t.job.account n u
      · obtain ⟨n, u, hc⟩ := hc
        simp only [complete_of_current hc]
        exact .recorded ht he hc
      · exact .recordedNowhere ht he fun n u h => hc ⟨n, u, h⟩
  · rw [if_neg ht, if_neg ht]
    exact .nothing _

end SessionManager

/-! ## All events -/

/-- Noting the end of a deployment leaves the pool alone. -/
@[simp] theorem SessionManager.complete_pool (a : Account) (r : DeployResult) (now : Timestamp)
    (m : SessionManager) : (complete a r now m).plant.pool = m.plant.pool := by
  unfold complete
  split
  · simp only [completeAt, unlink, persist]
    split
    · rfl
    · split <;> rfl
  · rfl

/-- Only the end of an upload gives the pool a job. -/
theorem Effect.works {m m' : SessionManager} {e : Event} {notes : List Note}
    (h : Effect m e m' notes) (he : ∀ a now, e ≠ .finalize a now) :
    m.plant.pool.Works m'.plant.pool := by
  cases h with
  | submitted => exact absurd rfl (he _ _)
  | failed => exact absurd rfl (he _ _)
  | worked pool => exact pool
  | recordedNowhere =>
    simp only [SessionManager.complete_pool]
    exact .refl _
  | _ => exact .refl _

/-- Every event has one of the effects. -/
theorem effect (e : Event) (m : SessionManager) : Effect m e (e.step m) (e.notes m) := by
  -- The notes of all but the end of an upload tell of no new job.
  have hjobs : ∀ {e : Event} {notes : List Note}, (∀ a now, e ≠ .finalize a now) →
      Effect m e (e.step m) notes → e.jobs m = [] := by
    intro e notes he h
    rw [Event.jobs, List.drop_eq_nil_of_le (h.works he).queue, List.map_nil]
  have hquiet : ∀ {e : Event}, (∀ a now, e ≠ .finalize a now) → e.parts m = [] → e.ends m = [] →
      Effect m e (e.step m) [] → Effect m e (e.step m) (e.notes m) := by
    intro e he hp hn h
    simpa only [Event.notes, hp, hn, hjobs he h, List.append_nil] using h
  cases e with
  | register a info requester id now =>
    exact hquiet (by simp) rfl rfl (SessionManager.effect_register m a info requester id now)
  | append a bytes =>
    have h := SessionManager.effect_append m a bytes
    rw [Event.notes, hjobs (by simp) h, List.append_nil]
    simpa only [Event.step, Event.ends, List.append_nil] using h
  | finalize a now =>
    have h := SessionManager.effect_finalize m a now
    simpa only [Event.notes, Event.step, Event.parts, Event.ends, List.nil_append,
      List.append_nil] using h
  | status a => exact hquiet (by simp) rfl rfl (.nothing _)
  | close => exact hquiet (by simp) rfl rfl (.worked (Pool.works_close _))
  | take => exact hquiet (by simp) rfl rfl (.worked (Pool.works_take _))
  | finish job =>
    refine hquiet (by simp) rfl rfl ?_
    simp only [Event.step, Plant.run]
    split
    next => exact .nothing _
    next job' hjob => split <;> exact .worked (Pool.works_finish hjob _)
  | record t now =>
    have h := SessionManager.effect_record m t now
    rw [Event.notes, hjobs (by simp) h]
    simpa only [Event.parts, List.nil_append] using h
  | crash job =>
    refine hquiet (by simp) rfl rfl ?_
    simp only [Event.step, Plant.crash]
    split
    · exact .nothing _
    · exact .worked (Pool.works_crash _ _)
  | files t => exact hquiet (by simp) rfl rfl (.files t)
  | metadata md => exact hquiet (by simp) rfl rfl (.worked (.refl _))
  | outage saveDown loadDown => exact hquiet (by simp) rfl rfl (.outage saveDown loadDown)

end Deployment
