import Deployment.Proofs.Deploy.Ledger
import Deployment.Proofs.Session.Durability

/-! # The archives of stored versions

A version is stored with the path of the archive that it was deployed from. The file stays there as
it is, through everything that is done for other accounts and through all other uploads of its own
account: these write to archives of their own. Only an upload under the same file name shares the
path, and the first part of such an upload takes the place of the archive.

* **`Event.Stores`** — with an event a version is stored; **`Event.stores_of_found`** — nothing
  else brings a version into the metadata.
* **`Event.SendsTo`**, **`SessionManager.Unsent`** — a part comes for an upload under a path, or
  none does along a run.
* **`Shelved`** — the archive of an upload holds a descriptor, and nobody writes to it.
* **`stored_archive_readable`** — the archive of a stored version holds its descriptor until a
  part comes under its path. -/

namespace Deployment

open Stateful FileTree SessionManager

/-! ## What the metadata is due to -/

namespace SessionManager

variable (m : SessionManager) (a : Account)

/-- A registration deploys nothing. -/
@[simp] theorem metadata_register (info : ResourceInfo) (requester : String) (id : Ulid)
    (now : Timestamp) :
    (finalState (register a info requester id now) m).plant.metadata = m.plant.metadata := by
  obtain ⟨f, -, he⟩ | ⟨-, -, -, -, he⟩ := enter_cases m a info requester id now
  · simp only [finalState, register, run_bind, he]
  · -- Whether or not the directory can be made, only the files and the sessions are touched.
    generalize m.newUpload a info requester id now = u at he
    cases hd : Files.createDirectories (m.settings.accountDirectory a) m.plant.files with
    | ok _ t =>
      simp only [finalState, register, run_bind, he, prepare_of_ok (m := begin a u m) hd]
      rfl
    | error f t =>
      simp only [finalState, register, run_bind, he, prepare_of_error (m := begin a u m) hd]
      rfl

/-- A part deploys nothing. -/
@[simp] theorem metadata_append (bytes : List UInt8) :
    (finalState (append a bytes) m).plant.metadata = m.plant.metadata := by
  cases hf : m.find? a with
  | none => simp only [finalState, append, run_bind, handle_of_idle hf]
  | some n =>
    simp only [finalState, append, run_bind, handle_of_find hf]
    cases hu : m.uploads[n]? with
    | none => simp only [appendTo, run_bind, upload_of_unknown hu]
    | some u =>
      cases ha : u.status.allows .uploading with
      | false => simp only [appendTo, run_bind, upload_of_known hu, allow, ha, Bool.false_eq_true,
          if_false, run_throw]
      | true =>
        cases bytes with
        | nil =>
          rw [appendTo_of_empty hu ha]
          rfl
        | cons b bytes =>
          cases hw : u.write (b :: bytes) m.plant.files with
          | ok w t =>
            rw [appendTo_of_written hu ha rfl hw]
            rfl
          | error f t =>
            rw [appendTo_of_fault hu ha rfl hw]
            rfl

/-- The end of an upload deploys nothing yet. -/
@[simp] theorem metadata_finalize (now : Timestamp) :
    (finalState (finalize a now) m).plant.metadata = m.plant.metadata := by
  cases hf : m.find? a with
  | none => simp only [finalState, finalize, run_bind, handle_of_idle hf]
  | some n =>
    simp only [finalState, finalize, run_bind, handle_of_find hf]
    cases hu : m.uploads[n]? with
    | none => simp only [finalizeAt, run_bind, upload_of_unknown hu]
    | some u =>
      rcases finalizeAt_cases hu a now with ⟨-, f, -, h⟩ |
        ⟨-, ⟨t, p, number, -, -, h⟩ | ⟨f, reason, t, p, -, -, -, -, -, h⟩⟩
      · rw [h]
      · rw [h]
        rfl
      · rw [h]
        rfl

/-- Nothing is deployed when the end of a job is noted: it was before. -/
@[simp] theorem metadata_complete (r : DeployResult) (now : Timestamp) :
    (complete a r now m).plant.metadata = m.plant.metadata := by
  unfold complete
  split
  · simp only [completeAt, unlink, persist]
    split
    · rfl
    · split <;> rfl
  · rfl

end SessionManager

namespace Event

/-- Nobody else changes the metadata. -/
def KeepsMetadata (e : Event) : Prop := ∀ md, e ≠ .metadata md

/-- The metadata changes only when a worker is done with a job. -/
theorem metadata_step {e : Event} (hm : e.KeepsMetadata) (hf : ∀ k, e ≠ .finish k)
    (m : SessionManager) : (e.step m).plant.metadata = m.plant.metadata := by
  cases e with
  | register a info requester id now => exact m.metadata_register a info requester id now
  | append a bytes => exact m.metadata_append a bytes
  | finalize a now => exact m.metadata_finalize a now
  | finish k => exact absurd rfl (hf k)
  | metadata md => exact absurd rfl (hm md)
  | record t now =>
    simp only [step, noteEnd]
    by_cases ht : t ∈ m.pending
    · rw [if_pos ht]
      cases m.ended? t.number with
      | none => rfl
      | some r => exact m.metadata_complete t.job.account r now
    · rw [if_neg ht]
  | crash k =>
    simp only [step, Plant.crash]
    split <;> rfl
  | _ => rfl

/-- With the event a worker stores a version: it is done with a job that has loaded the version
from its archive, and the version is in the metadata afterwards. -/
def Stores (e : Event) (m : SessionManager) (r : StoredApplication) : Prop :=
  ∃ k d, e = .finish k.number ∧ k ∈ m.plant.pool.running ∧ k.job.load m.plant.files = .ok d ∧
    d.record = r ∧ Keyed.find? r.id (e.step m).plant.metadata.applications = some r

/-- A version that is found under an identity was found there before, or it is stored with the
event. -/
theorem stores_of_found {e : Event} (hm : e.KeepsMetadata) {m : SessionManager}
    {id : ApplicationId} {r : StoredApplication}
    (hr : Keyed.find? id (e.step m).plant.metadata.applications = some r) :
    Keyed.find? id m.plant.metadata.applications = some r ∨ r.id = id ∧ e.Stores m r := by
  -- Only a job that ends can have put a record there.
  by_cases hf : ∃ k, e = .finish k
  · obtain ⟨k, rfl⟩ := hf
    cases hjob : m.plant.pool.runningJob? k with
    | none =>
      left
      rwa [step, Plant.run_of_nobody hjob] at hr
    | some job =>
      have hfound := hr
      rw [step, show ({ m with plant := m.plant.run k } : SessionManager).plant.metadata = _ from
        Plant.metadata_run hjob] at hr
      obtain ⟨looks, hlooks⟩ | ⟨d, md, load, ⟨looks, rfl⟩, -, hleft⟩ :=
        job.leaves m.plant.files m.plant.metadata
      · -- Looking things up leaves the applications as they are.
        rw [hlooks] at hr
        exact .inl hr
      · rw [hleft] at hr
        rcases (d.register_registers.extending _).applications id with heq | ⟨rfl, hnew⟩
        · left
          rwa [heq] at hr
        · obtain rfl : d.record = r := Option.some.inj (hnew.symm.trans hr)
          exact .inr ⟨rfl, ⟨k, job⟩, d, rfl, Pool.mem_running_of_runningJob? hjob, load, rfl,
            hfound⟩
  · exact .inl (metadata_step hm (fun k hk => hf ⟨k, hk⟩) m ▸ hr)

end Event

/-- A version that is found after a run was found before it, or it was stored on the way. -/
theorem SessionManager.stored_on_the_way {es : List Event} (hes : ∀ e ∈ es, e.KeepsMetadata)
    {m : SessionManager} {id : ApplicationId} {r : StoredApplication}
    (hr : Keyed.find? id (m.after es).plant.metadata.applications = some r) :
    Keyed.find? id m.plant.metadata.applications = some r ∨
      r.id = id ∧ ∃ es₁ e es₂, es = es₁ ++ e :: es₂ ∧ e.Stores (m.after es₁) r := by
  induction es generalizing m with
  | nil => exact .inl hr
  | cons e es ih =>
    -- Either the first event has stored the record and no later one has, or a later one has.
    rcases ih (fun e' he' => hes e' (List.mem_cons_of_mem e he')) hr with hthere | hlater
    · rcases Event.stores_of_found (hes e List.mem_cons_self) hthere with hbefore | ⟨hid, hnow⟩
      · exact .inl hbefore
      · exact .inr ⟨hid, [], e, es, rfl, hnow⟩
    · obtain ⟨hid, es₁, e', es₂, rfl, hstores⟩ := hlater
      exact .inr ⟨hid, e :: es₁, e', es₂, rfl, hstores⟩

/-! ## Parts that come under a path -/

/-- With the event a part comes for an upload of the account that has its archive at a path. -/
def Event.SendsTo (e : Event) (m : SessionManager) (a : Account) (path : String) : Prop :=
  ∃ bytes n u, e = .append a bytes ∧ m.InProgress a n u ∧ u.archive = path ∧
    u.status.allows .uploading = true

/-- Parts come with one kind of event only. -/
theorem Event.not_sendsTo {e : Event} {m : SessionManager} {a : Account} {path : String}
    (h : ∀ bytes, e ≠ .append a bytes) : ¬ e.SendsTo m a path := by
  rintro ⟨bytes, n, u, he, -⟩
  exact h bytes he

/-- They come for the archive of the upload that is in progress. -/
theorem Event.not_sendsTo_of_archive {e : Event} {m : SessionManager} {a : Account}
    {path path' : String}
    (h : ((m.find? a).bind (m.uploads[·]?)).map (·.archive) = some path') (hne : path' ≠ path) :
    ¬ e.SendsTo m a path := by
  rintro ⟨bytes, n, u, -, current, rfl, -⟩
  rw [current.find, Option.bind_some, current.known, Option.map_some] at h
  exact hne (Option.some.inj h).symm

/-- Along the run no part comes for an upload of the account that has its archive at a path. -/
def SessionManager.Unsent (m : SessionManager) (a : Account) (path : String) : List Event → Prop
  | [] => True
  | e :: es => ¬ e.SendsTo m a path ∧ (e.step m).Unsent a path es

/-! ## What an event does to an archive -/

/-- No archive stands where the directory of an account does. -/
theorem Upload.Placed.ne_directory {s : Settings} {u : Upload} (hp : u.Placed s) (a : Account) :
    Path.place u.archive ≠ Path.place s.archiveDir ++ [a.name] := by
  obtain ⟨hv, name, hname, -, harch⟩ := hp
  rw [harch, s.place_join hv hname]
  exact fun h => nomatch (List.cons.inj (List.append_cancel_left h)).2

namespace Effect

variable {s : Settings} {h : List Note} {m m' : SessionManager} {e : Event} {notes : List Note}
  {u : Upload}

/-- A part that is accepted comes with the event of that name. -/
theorem append_of_accepted {n : Nat} {bytes : List UInt8}
    (he : Effect m e m' [.accepted n bytes]) : ∃ a u, e = .append a bytes ∧ m.InProgress a n u ∧
      u.status.allows .uploading = true := by
  cases he with
  | accepted current may => exact ⟨_, _, rfl, current, may⟩

/-- An event leaves the archive of an upload alone if nobody writes to it, and no part comes under
its path. -/
theorem spares_archive (he : Effect m e m' notes) (hk : Kept s h m)
    (hn : Path.isPlainName s.sessionFile = true) (hq : e.KeepsFiles) (hp : u.Placed s)
    (hr : m.plant.files.Reaches (s.accountDirectory u.account))
    (hclosed : ∀ n v, m.InProgress u.account n v → v.archive = u.archive → v.writer = none)
    (hsent : ¬ e.SendsTo m u.account u.archive) :
    ChangesOnly (· ≠ Path.place u.archive) m.plant.files m'.plant.files := by
  have hroot := Settings.reaches_archiveDir hp.valid hr
  -- An event of the same account may write in its directory; that it was not this file follows from
  -- what was sent, an event of another account cannot reach it.
  by_cases hb : e.Concerns u.account
  · refine (he.changes hk hn hq hp.valid hroot hb).mono fun p hwrites => ?_
    cases hwrites with
    | directory => exact (hp.ne_directory u.account).symm
    | @archive n v current written =>
      intro heq
      have harch := ((hk.sited.placed n v current.known).archive_eq hp heq).2
      obtain ⟨bytes, rfl, may⟩ := written (hclosed n v current harch)
      exact hsent ⟨bytes, n, v, rfl, current, harch, may⟩
    -- The archive and the record are two files, since uploads under the name of the record are
    -- refused.
    | record recorded =>
      rintro rfl
      exact hp.not_recorded u.account recorded
  · refine ((he.spares hk.linked hk.sited hn hk.working hb).files hroot).mono fun p hnot heq => ?_
    exact hnot (heq ▸ hp.belongs)

/-- If nobody writes to the archive of an upload, then nobody does so after an event with which no
part comes under its path. -/
theorem archive_closed (he : Effect m e m' notes) (hk : Kept s h m)
    (hn : Path.isPlainName s.sessionFile = true) (hq : e.KeepsFiles)
    (hclosed : ∀ n v, m.InProgress u.account n v → v.archive = u.archive → v.writer = none)
    (hsent : ¬ e.SendsTo m u.account u.archive) {n : Nat} {v : Upload}
    (hc : m'.InProgress u.account n v) (heq : v.archive = u.archive) : v.writer = none := by
  by_cases hb : e.Concerns u.account
  · cases he.origin hk.linked hq hb hc with
    | kept before => exact hclosed n v before heq
    | new number status closed => exact closed
    -- A part opens the archive, and none was sent to this one.
    | part v₀ w bytes before may some written now told =>
      subst now told
      obtain ⟨a, v₁, rfl, current, may'⟩ := he.append_of_accepted
      obtain rfl : a = u.account := hb
      obtain ⟨-, rfl⟩ := current.unique before
      exact absurd ⟨bytes, n, v₁, rfl, current, heq, may'⟩ hsent
    | complete v₀ o t before may closed now =>
      subst now
      rfl
  · have hsp := he.spares hk.linked hk.sited hn hk.working hb
    obtain ⟨v', hv'⟩ := hk.linked.known (hsp.find.symm.trans hc.find)
    obtain rfl : v' = v := Option.some.inj ((hsp.known n v' hv').symm.trans hc.known)
    exact hclosed n v' hv' heq

end Effect

/-! ## Archives that nobody writes to -/

/-- The archive of an upload holds a descriptor, and nobody writes to it. -/
structure Shelved (s : Settings) (u : Upload) (spec : ApplicationSpec) (h : List Note)
    (m : SessionManager) : Prop where
  kept : Kept s h m
  placed : u.Placed s
  reaches : m.plant.files.Reaches (s.accountDirectory u.account)
  read : readArchive m.plant.files u.archive = .ok spec
  closed : ∀ n v, m.InProgress u.account n v → v.archive = u.archive → v.writer = none

namespace Shelved

variable {s : Settings} {u : Upload} {spec : ApplicationSpec} {h : List Note}
  {m m' : SessionManager} {e : Event} {notes : List Note}

/-- An archive that a version is stored from is at its path, and nobody writes to it. -/
theorem of_stores (hk : Kept s h m) {r : StoredApplication} (hr : e.Stores m r) :
    ∃ u, u.account = ⟨r.id.scope⟩ ∧ u.archive = r.archive ∧ Shelved s u r.spec h m := by
  obtain ⟨k, d, -, hrunning, hload, rfl, -⟩ := hr
  have hpending : k ∈ m.pending :=
    hk.linked.unfinished.subset (List.mem_append_left _ hrunning)
  obtain ⟨n, u, hc, hstatus, hjob, -⟩ := hk.linked.of_pending hpending
  have hown := hk.linked.own hc
  obtain ⟨hreach, harchived⟩ := hk.archives _ n u hc
  -- A job runs for an upload that is being verified, which has closed its archive.
  have hwriter : u.writer = none := by
    cases harchived with
    | untouched _ closed => exact closed
    | «open» status =>
      rw [hstatus] at status
      cases status
    | complete _ closed => exact closed
  obtain ⟨spec, hread, rfl⟩ := DeployJob.load_eq_ok hload
  have harch : k.job.archive = u.archive := by
    rw [hjob]
    rfl
  refine ⟨u, hown, harch.symm, hk, hk.sited.placed n u hc.known, hown ▸ hreach, ?_, ?_⟩
  · rw [← harch]
    exact hread
  · intro n' v hv _
    rw [hown] at hv
    rw [(hv.unique hc).2, hwriter]

/-- Every event keeps an archive as it is, unless a part comes under its path. -/
theorem step (hs : Shelved s u spec h m) (hn : Path.isPlainName s.sessionFile = true)
    (he : Effect m e m' notes) (hq : e.KeepsFiles) (hsent : ¬ e.SendsTo m u.account u.archive) :
    Shelved s u spec (h ++ notes) m' := by
  have hch := he.spares_archive hs.kept hn hq hs.placed hs.reaches hs.closed hsent
  refine ⟨hs.kept.step hn he hq, hs.placed, hch.reaches hs.reaches, ?_,
    fun n v hc heq => he.archive_closed hs.kept hn hq hs.closed hsent hc heq⟩
  obtain ⟨name, hname, -, harch⟩ := hs.placed.archive
  -- The file is the same and so is the way to it, hence what the loader makes of it.
  have hread : m'.plant.files.read u.archive = m.plant.files.read u.archive := by
    rw [harch]
    refine read_join_congr hname hs.reaches (hch.reaches hs.reaches) ?_
    rw [← Path.place_join _ hname, ← harch]
    exact hch.same _ fun hne => hne rfl
  rw [← hs.read]
  simp only [readArchive, hread]

/-- So does every run, by induction on its events. -/
theorem after (hs : Shelved s u spec h m) (hn : Path.isPlainName s.sessionFile = true)
    {es : List Event} (hes : ∀ e ∈ es, e.KeepsFiles)
    (hsent : m.Unsent u.account u.archive es) :
    Shelved s u spec (h ++ m.journal es) (m.after es) := by
  induction es generalizing h m with
  | nil => simpa only [SessionManager.after, journal, List.append_nil] using hs
  | cons e es ih =>
    rw [SessionManager.after, journal, ← List.append_assoc]
    exact ih (hs.step hn (effect e m) (hes e List.mem_cons_self) hsent.1)
      (fun e' he' => hes e' (List.mem_cons_of_mem e he')) hsent.2

end Shelved

/-- **The archive of a stored version holds its descriptor until a part comes under its path.**
Every version in the metadata was stored by a worker that had loaded it from its archive. From then
on the file is there and is decoded to the descriptor of the version, whatever is done for other
accounts and however other uploads of its account end, unless a part comes for a later upload of
the account under the same file name. -/
theorem stored_archive_readable (s : Settings) (hs : s.validate = .ok ()) (t : FileTree)
    (md : Metadata) (bare : md.applications = []) (es : List Event)
    (keepsFiles : ∀ e ∈ es, e.KeepsFiles) (keepsMetadata : ∀ e ∈ es, e.KeepsMetadata) :
    (∀ id r, Keyed.find? id ((start s t md).after es).plant.metadata.applications = some r →
        r.id = id ∧ ∃ es₁ e es₂, es = es₁ ++ e :: es₂ ∧ e.Stores ((start s t md).after es₁) r) ∧
      ∀ es₁ e es₂ r, es = es₁ ++ e :: es₂ → e.Stores ((start s t md).after es₁) r →
        ((start s t md).after (es₁ ++ [e])).Unsent ⟨r.id.scope⟩ r.archive es₂ →
        readArchive ((start s t md).after es).plant.files r.archive = .ok r.spec := by
  have hn := Settings.isPlainName_of_validate hs
  constructor
  · intro id r hr
    refine (stored_on_the_way keepsMetadata hr).resolve_left fun hbefore => ?_
    have hnone : Keyed.find? id md.applications = some r := hbefore
    rw [bare] at hnone
    cases hnone
  · rintro es₁ e es₂ r rfl hstores hunsent
    obtain ⟨hes₁, he, hes₂⟩ := List.forall_mem_append.1 keepsFiles |>.imp_right
      List.forall_mem_cons.1
    have hk := (Kept.start s t md).after hn hes₁
    obtain ⟨u, hown, harch, hshelved⟩ := Shelved.of_stores hk hstores
    -- with the event itself no part comes: a worker is done with a job
    have hsent : ¬ e.SendsTo ((start s t md).after es₁) u.account u.archive := by
      obtain ⟨k, d, rfl, -⟩ := hstores
      exact Event.not_sendsTo nofun
    rw [after_append] at hunsent ⊢
    rw [← hown, ← harch] at hunsent
    have hafter := (hshelved.step hn (effect e _) he hsent).after hn hes₂ hunsent
    rw [← harch]
    exact hafter.read

namespace Sample

/-- The account uploads its descriptor, and a worker takes the job. -/
def uploads : List Event := begins 0 :: .append account descriptor :: ends

/-- The account uploads another version under a file name, and a worker is done with that. -/
def updates (fileName : String) : List Event :=
  .register account { account := account, fileName := fileName } "alice" ⟨1⟩ now ::
    .append account (Utf8.encode "\x7b\"name\":\"app\",\"version\":\"2\"\x7d") ::
    ends ++ [.finish 1]

/-- The version that is deployed first. -/
def firstVersion : ApplicationId := ⟨"acme", "app", "-SNAPSHOT"⟩

/-- Nobody else changes files or metadata in the run of the sample. -/
theorem updates_quiet (fileName : String) :
    ∀ e ∈ deploys ++ updates fileName, e.KeepsFiles ∧ e.KeepsMetadata := by
  simp [deploys, works, updates, ends, begins, Event.KeepsFiles, Event.KeepsMetadata]

end Sample

open Sample in
/-- The archive of the first version is as it was when another version was deployed from a file of
another name. -/
theorem update_spares_archive :
    ∃ r, Keyed.find? firstVersion
        ((Event.finish 0).step (service.after uploads)).plant.metadata.applications = some r ∧
      r.archive = job.archive ∧
      readArchive (service.after (deploys ++ updates "next.json")).plant.files r.archive =
        .ok r.spec := by
  have hstored : (Keyed.find? firstVersion
      ((Event.finish 0).step (service.after uploads)).plant.metadata.applications).map
        (fun r => (r.id, r.archive)) = some (firstVersion, job.archive) := by
    decide +kernel
  obtain ⟨r, hr, hpair⟩ := Option.map_eq_some_iff.1 hstored
  obtain ⟨hid, harch⟩ := Prod.mk.inj hpair
  have hstores : (Event.finish 0).Stores (service.after uploads) r := by
    have hnone : (Keyed.find? firstVersion
        (service.after uploads).plant.metadata.applications).isSome = false := by
      decide +kernel
    have hkeeps : (Event.finish 0).KeepsMetadata := nofun
    refine ((Event.stores_of_found hkeeps hr).resolve_left fun hbefore => ?_).2
    rw [hbefore] at hnone
    cases hnone
  refine ⟨r, hr, harch, ?_⟩
  refine (stored_archive_readable settings rfl .empty .empty rfl _
    (fun e he => (updates_quiet _ e he).1) fun e he => (updates_quiet _ e he).2).2 uploads
      (.finish 0) (.record ⟨0, job⟩ now :: updates "next.json") r rfl hstores ?_
  rw [hid, harch]
  -- the one part that comes is for an archive of another name
  have hother : "root/acme/next.json" ≠ job.archive := by decide
  refine ⟨Event.not_sendsTo nofun, Event.not_sendsTo nofun,
    Event.not_sendsTo_of_archive ?_ hother, Event.not_sendsTo nofun, Event.not_sendsTo nofun,
    Event.not_sendsTo nofun, trivial⟩
  decide +kernel

open Sample in
/-- An update under the same file name takes the place of the archive: what the first version is
stored with is then not what is read from its archive. -/
theorem update_replaces_archive :
    ¬ ∀ (s : Settings) (es : List Event), s.validate = .ok () → (∀ e ∈ es, e.KeepsFiles) →
      (∀ e ∈ es, e.KeepsMetadata) → ∀ id r,
        Keyed.find? id ((start s .empty .empty).after es).plant.metadata.applications = some r →
        readArchive ((start s .empty .empty).after es).plant.files r.archive = .ok r.spec := by
  intro hall
  -- The first version is on record with its own archive path …
  have hstored : (Keyed.find? firstVersion ((start settings .empty .empty).after
      (deploys ++ updates "app.json")).plant.metadata.applications).map
        (fun r => (r.archive, r.spec.version)) = some (job.archive, "-SNAPSHOT") := by
    decide +kernel
  -- … at which, after the update, the second version lies.
  have hread : (readArchive ((start settings .empty .empty).after
      (deploys ++ updates "app.json")).plant.files job.archive).toOption.map (·.version) =
        some "2" := by
    decide +kernel
  obtain ⟨r, hr, hpair⟩ := Option.map_eq_some_iff.1 hstored
  obtain ⟨harch, hversion⟩ := Prod.mk.inj hpair
  have hsame := hall settings _ rfl (fun e he => (updates_quiet _ e he).1)
    (fun e he => (updates_quiet _ e he).2) firstVersion r hr
  rw [harch] at hsame
  rw [hsame] at hread
  have htwo : r.spec.version = "2" := Option.some.inj hread
  rw [hversion] at htwo
  exact absurd htwo (by decide)

end Deployment
