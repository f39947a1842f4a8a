import Deployment.Proofs.Command.PieceSize
import Deployment.Proofs.Session.Unsaved

/-! # One upload on its own

A file that is deployed has a manager to itself. It begins one upload and asks for one job; the job
runs, its end is noted, and the record of the upload is all that is told from.

* **`Settings.receive`** — what an upload does to the files.
* **`SessionManager.awaiting`** — a manager with one upload, whose job waits.
* **`uploadAll_yields`** — an upload ends there exactly where its files can be received.
* **`SessionManager.runAll_awaiting`** — the job runs, and its end is noted.
* **`Upload.recorded`** — the record of the upload by then; **`RecordStore.Takes`** — it can
  be saved.
* **`concluded_awaiting`** — what is told in the end is what the records tell. -/

namespace Deployment

open Stateful FileTree SessionManager

/-! ## Receiving a file -/

/-- What an upload in parts does to the files: the directory of the account is made, and the parts
are stored together in a file there. -/
def Settings.receive (s : Settings) (a : Account) (name : String) (parts : List (List UInt8)) :
    Files Unit := do
  Files.createDirectories (s.accountDirectory a)
  let w ← Writer.open (Path.join (s.accountDirectory a) name)
  w.store parts

/-- What was received is read where it was stored. -/
theorem Settings.read_of_receive {s : Settings} {a : Account} {name : String}
    {parts : List (List UInt8)} {t t' : FileTree} (hn : Path.isPlainName name = true)
    (hb : parts.flatten ≠ []) (h : s.receive a name parts t = .ok () t') :
    t'.read (Path.join (s.accountDirectory a) name) = .ok parts.flatten := by
  obtain ⟨⟨⟩, t₁, hmade, h⟩ := run_bind_ok.1 h
  obtain ⟨w, t₂, hopen, hstore⟩ := run_bind_ok.1 h
  obtain ⟨done, hreached, hdone⟩ := Writer.open_holds hopen
  have hstored := Writer.store_yields (Writer.open_clean hopen) (Writer.open_holds hopen) hb
  rw [yields_of_ok hstore] at hstored
  cases hreached with
  | device sink => rw [sink] at hstored; cases hstored
  | file n sink there =>
    rw [sink] at hstored
    obtain rfl : t' = t₂.setContent n parts.flatten := congrArg Prod.snd (Except.ok.inj hstored)
    -- the path leads where it led when the file was opened
    have hmade' := Files.createDirectories_reaches hmade
    have hchanged := Writer.open_changes (Path.join (s.accountDirectory a) name) t₁
    rw [finalState_of_ok hopen] at hchanged
    obtain ⟨target, htarget⟩ := Writer.open_resolves hopen
    have hresolved :
        (t₂.setContent n parts.flatten).resolve (Path.join (s.accountDirectory a) name) =
        .ok target := (resolve_join_congr hn hmade' (hchanged.reaches hmade')).trans htarget
    rw [read_of_resolve hresolved, resolve_place hresolved, find?_setContent, there,
      (reaches_of_resolve_join hn htarget).2]
    simp [content_setContent, lt_size_of_find? there]

/-- The upload of a file, once all of it has come. -/
def Settings.received (s : Settings) (info : ResourceInfo) (requester : String) (id : Ulid)
    (now : Timestamp) : Upload where
  resource := ⟨info.account, info.application, id, 1⟩
  account := info.account
  archive := Path.join (s.accountDirectory info.account) info.fileName
  status := .verifying
  owner := info.owner
  requester := requester
  createdAt := now

/-- A manager that was started for one upload, whose deployment was asked for. -/
def SessionManager.awaiting (s : Settings) (t : FileTree) (u : Upload) : SessionManager :=
  { start s t .empty with
    plant := ⟨t, .empty, { Pool.start s.workers s.queueCapacity with
      queue := [⟨0, u.job⟩], stats := { submitted := 1 } }⟩
    uploads := [u]
    live := [(u.account, 0)]
    pending := [⟨0, u.job⟩] }

section
variable {s : Settings} {t : FileTree} {token : Token} {info : ResourceInfo} {id : Ulid}
  {now : Timestamp} {parts : List (List UInt8)}

/-- The first job of a pool is accepted. -/
theorem Pool.submit_start (workers capacity : Nat) (job : DeployJob) :
    Pool.submit job (Pool.start workers capacity) = .ok 0
      { Pool.start workers capacity with queue := [⟨0, job⟩], stats := { submitted := 1 } } := by
  have hworkers : (max workers 1 = 0) = False := by simp
  have hroom : (max capacity 1 ≤ 0) = False := by simp
  simp only [submit, start, Bool.not_true, hworkers, decide_false, Bool.or_self, Bool.false_eq_true,
    List.length_nil, hroom, if_false, List.nil_append, Nat.zero_add]

/-- Where the names are good and nobody uploads, an upload is entered. -/
theorem SessionManager.enter_start {a : Account} (requester : String) (hv : a.isValid = true)
    (hn : Path.isPlainName info.fileName = true) (hr : s.isReserved info.fileName = false) :
    enter a info requester id now (start s t .empty) =
      .ok ((start s t .empty).newUpload a info requester id now)
        (begin a ((start s t .empty).newUpload a info requester id now) (start s t .empty)) := by
  have hfree : (start s t .empty).settings.isReserved info.fileName = false := hr
  have hidle : (start s t .empty).hasSession a = false := rfl
  simp only [enter, requireValid, hv, if_true, run_bind, run_pure, run_get, run_ite, hn, hfree,
    hidle, Bool.not_true, Bool.or_self, Bool.false_eq_true, if_false, run_modify]
  rfl

/-- It is registered where the directory of its account can be made. -/
theorem SessionManager.register_start {a : Account} (requester : String) (hv : a.isValid = true)
    (hn : Path.isPlainName info.fileName = true) (hr : s.isReserved info.fileName = false) :
    let u := (start s t .empty).newUpload a info requester id now
    yields (register a info requester id now) (start s t .empty) =
      (yields (Files.createDirectories (s.accountDirectory a)) t).mapError (.storage a) >>= fun r =>
        .ok (u.resource, withFiles r.2 (begin a u (start s t .empty))) := by
  intro u
  have henter : enter a info requester id now (start s t .empty) =
      .ok u (begin a u (start s t .empty)) := enter_start requester hv hn hr
  rw [register, yields_bind, yields_of_ok henter, Failing.ok_bind, yields_bind]
  cases hd : Files.createDirectories (s.accountDirectory a) t with
  | error f t₁ =>
    rw [yields_of_error (prepare_of_error (m := begin a u (start s t .empty)) hd),
      yields_of_error hd]
    rfl
  | ok _ t₁ =>
    rw [yields_of_ok (prepare_of_ok (m := begin a u (start s t .empty)) hd), yields_of_ok hd]
    rfl

/-- An upload ends with its job waiting exactly where its files can be received. -/
theorem uploadAll_yields (ht : token.isBlank = false) (hv : info.account.isValid = true)
    (hn : Path.isPlainName info.fileName = true) (hr : s.isReserved info.fileName = false)
    (hp : ∀ part ∈ parts, part ≠ []) (hb : parts.flatten ≠ []) :
    yields (uploadAll token info parts id now) (start s t .empty) =
      (yields (s.receive info.account info.fileName parts) t).mapError (.storage info.account) >>=
        fun r => .ok (⟨(s.received info token.principal id now).resource, 0⟩,
          awaiting s r.2 (s.received info token.principal id now)) := by
  let u := (start s t .empty).newUpload info.account info token.principal id now
  let m := begin info.account u (start s t .empty)
  rw [uploadAll_eq ht, yields_bind, register_start token.principal hv hn hr, Settings.receive,
    yields_bind]
  cases hd : Files.createDirectories (s.accountDirectory info.account) t with
  | error f t₁ => rw [yields_of_error hd]; rfl
  | ok _ t₁ =>
    rw [yields_of_ok hd]
    simp only [Failing.ok_bind, Failing.mapError_ok]
    have hc : (withFiles t₁ m).InProgress info.account 0 u := ⟨if_pos rfl, rfl⟩
    have hsend : yields (send info.account parts now) (withFiles t₁ m) = _ :=
      send_yields hc rfl rfl hp hb
    -- the job is the first that the pool is asked for
    have hrequest : ∀ t₂, yields (requestDeploy 0 u now) (withFiles t₂ (put 0 u.waiting m)) =
        .ok (⟨u.resource, 0⟩, awaiting s t₂ (s.received info token.principal id now)) := by
      intro t₂
      have htaken := Pool.submit_start s.workers s.queueCapacity u.job
      exact yields_of_ok (requestDeploy_of_taken (m := withFiles t₂ (put 0 u.waiting m)) htaken)
    rw [yields_bind]
    refine hsend.trans ?_
    cases ho : Writer.open (Path.join (s.accountDirectory info.account) info.fileName) t₁ with
    | error f t₂ =>
      have ho' : Writer.open u.archive (withFiles t₁ m).plant.files = .error f t₂ := ho
      rw [yields_of_error ho', yields_of_error ho]
      rfl
    | ok w t₂ =>
      have ho' : Writer.open u.archive (withFiles t₁ m).plant.files = .ok w t₂ := ho
      have hstore := Writer.store_yields (Writer.open_clean ho) (Writer.open_holds ho) hb
      rw [yields_of_ok ho', yields_of_ok ho]
      simp only [Failing.ok_bind, Failing.mapError_ok, hstore]
      cases Writer.stored w.sink parts.flatten t₂ with
      | error f => rfl
      | ok r => exact hrequest r.2

end

/-! ## Waiting for the end -/

section
variable {s : Settings} {t : FileTree} {u : Upload} {now : Timestamp}

/-- A worker takes the only job that waits. -/
theorem Pool.takeAll_single (workers capacity : Nat) (k : Ticket) (stats : PoolStats) :
    ({ Pool.start workers capacity with queue := [k], stats := stats } : Pool).takeAll =
      { Pool.start workers capacity with
        running := [k], stats := { stats with inFlight := stats.inFlight + 1 } } := by
  have hfree : 0 < max workers 1 := Nat.lt_of_lt_of_le Nat.zero_lt_one (Nat.le_max_right _ _)
  simp only [takeAll, List.length_singleton, Nat.repeat, take, hasFreeWorker, start,
    List.length_nil, hfree, decide_true, if_true, List.nil_append]

/-- What the job of an upload comes to over files, where nothing was deployed. -/
def Upload.verdict (u : Upload) (t : FileTree) : DeployResult := answer (u.job.run t) .empty

/-- The record of an upload whose job has run over the files. -/
def Upload.recorded (u : Upload) (now : Timestamp) (t : FileTree) : SessionRecord :=
  (u.endedWith (u.verdict t)).record now

/-- A record can be saved over the files. -/
def RecordStore.Takes (s : RecordStore) (r : SessionRecord) (t : FileTree) : Prop :=
  ∃ t', s.save r t = .ok () t'

/-- A manager with one upload, whose job has run. -/
def SessionManager.finished (s : Settings) (t : FileTree) (u : Upload) (md : Metadata)
    (stats : PoolStats) : SessionManager :=
  { awaiting s t u with
    plant := ⟨t, md, { Pool.start s.workers s.queueCapacity with
      results := [(0, u.verdict t)], stats := stats }⟩ }

/-- The only job runs. -/
theorem SessionManager.runAll_awaiting (s : Settings) (t : FileTree) (u : Upload)
    (now : Timestamp) :
    ∃ md stats, (awaiting s t u).runAll now = settle now (finished s t u md stats) := by
  have htaken := Pool.takeAll_single s.workers s.queueCapacity ⟨0, u.job⟩ { submitted := 1 }
  have hrun : ∃ md stats, (awaiting s t u).plant.runNext = (finished s t u md stats).plant := by
    simp only [Plant.runNext, Plant.run, Plant.takeAll, awaiting, htaken, Pool.runningJob?,
      List.find?_cons, decide_true, Option.map_some, finished, Upload.verdict, answer]
    cases u.job.run t .empty <;> exact ⟨_, _, rfl⟩
  obtain ⟨md, stats, hrun⟩ := hrun
  exact ⟨md, stats, congrArg (fun p => settle now { awaiting s t u with plant := p }) hrun⟩

/-- Its end is noted: the upload has ended and is forgotten, but for its record. -/
theorem SessionManager.settle_finished (s : Settings) (t : FileTree) (u : Upload) (md : Metadata)
    (stats : PoolStats) (now : Timestamp) :
    settle now (finished s t u md stats) = { finished s t u md stats with
      plant := { (finished s t u md stats).plant with
        files := finalState ((start s t .empty).records.save (u.recorded now t)) t }
      uploads := [u.endedWith (u.verdict t)]
      live := []
      pending := [] } := by
  let m := finished s t u md stats
  -- One job was pending, so settling records one end, and leaves neither session nor job.
  have hsettle : settle now m = noteEnd now m ⟨0, u.job⟩ := rfl
  have hended : m.ended? 0 = some (u.verdict t) := rfl
  have hfind : m.find? u.job.account = some 0 := if_pos rfl
  have hsaved : persist 0 now (put 0 (u.endedWith (u.verdict t)) m) = withFiles
      (finalState ((start s t .empty).records.save (u.recorded now t)) t)
      (put 0 (u.endedWith (u.verdict t)) m) := persist_eq rfl now
  have hcomplete : complete u.job.account (u.verdict t) now m =
      unlink u.account (persist 0 now (put 0 (u.endedWith (u.verdict t)) m)) := by
    simp only [complete, hfind]
    rfl
  rw [hsettle, noteEnd, hended]
  simp only [hcomplete, hsaved]
  simp [m, finished, awaiting, unlink, withFiles, put, Keyed.erase]

/-- The programs of a deployment that has succeeded. -/
def programsOf : DeployResult → List (ProgramKind × String)
  | .ok d => d.programs
  | .error _ => []

/-- What is told in the end is what the records tell of the account. -/
theorem concluded_awaiting {token : Token} (ht : token.isBlank = false)
    (hv : u.account.isValid = true) (hown : u.resource.account = u.account) :
    let left := finalState ((start s t .empty).records.save (u.recorded now t)) t
    concluded token now (⟨u.resource, 0⟩, awaiting s t u) =
      (((start s t .empty).records.told left u.account).mapError
        (fun f => CommandFault.service (.session f))).map fun reply =>
          (⟨u.resource, reply, programsOf (u.verdict t)⟩, left) := by
  intro left
  obtain ⟨md, stats, hall⟩ := runAll_awaiting s t u now
  let m := (awaiting s t u).runAll now
  have hdone : m = _ := hall.trans (settle_finished s t u md stats now)
  -- Once all has run there is no session, so the status is read from the record.
  have hidle : m.find? u.account = none := by rw [hdone]; rfl
  have hresult : m.result? ⟨u.resource, 0⟩ = some (u.verdict t) := by rw [hdone]; rfl
  have hfiles : m.plant.files = left := by rw [hdone]
  have hrecords : m.records = (start s t .empty).records := by rw [hdone]; rfl
  have hstatus :
      Service.status token u.resource m = (start s t .empty).records.told left u.account := by
    rw [Service.status, ht, hown, ← hfiles, ← hrecords]
    exact status_of_idle hv hidle
  show (outcomeOf token ⟨u.resource, 0⟩ m).map (fun o => (o, m.plant.files)) = _
  rw [outcomeOf, hresult, hfiles]
  simp only [hstatus]
  cases (start s t .empty).records.told left u.account with
  | error f => rfl
  | ok reply => cases u.verdict t <;> rfl

/-- The end of an upload whose record was saved is what the records tell. -/
theorem told_of_ended {v : DeployResult} {t₁ : FileTree}
    (hn : Path.isPlainName s.sessionFile = true) (hu : (u.record now).Sound)
    (h : (start s t .empty).records.save ((u.endedWith v).record now) t = .ok () t₁) :
    (start s t .empty).records.told t₁ u.account =
      .ok (.ofOutcome (outcome v).1 (outcome v).2) := by
  have hsound : ((u.endedWith v).record now).Sound := ⟨hu.version_le, hu.createdAt, hu.updatedAt⟩
  have htold := RecordStore.told_of_save (s := (start s t .empty).records) hn hsound h
  rwa [show { (start s t .empty).records with loadDown := false } = (start s t .empty).records
    from rfl, show ((u.endedWith v).record now).account = u.account from rfl] at htold

/-- If that record can be saved, the end of the upload is told. -/
theorem concluded_of_save {token : Token} (ht : token.isBlank = false)
    (hn : Path.isPlainName s.sessionFile = true) (hown : u.resource.account = u.account)
    (hu : (u.record now).Sound)
    (hsave : (start s t .empty).records.Takes (u.recorded now t) t) :
    ∃ t', concluded token now (⟨u.resource, 0⟩, awaiting s t u) = .ok
      (⟨u.resource, .ofOutcome (outcome (u.verdict t)).1 (outcome (u.verdict t)).2,
        programsOf (u.verdict t)⟩, t') := by
  obtain ⟨t', hsaved⟩ := hsave
  have hv : u.account.isValid = true :=
    (RecordStore.read_of_save hn (RecordStore.bytes_ne_nil _) hsaved).1
  refine ⟨t', ?_⟩
  rw [concluded_awaiting ht hv hown, finalState_of_ok hsaved, told_of_ended hn hu hsaved]
  rfl

end

end Deployment
