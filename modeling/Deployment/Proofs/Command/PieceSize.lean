import Deployment.Command.Run
import Deployment.Proofs.Session.Splitting

/-! # The size of pieces

An archive is uploaded in pieces of the size that the settings choose. Nothing but the cutting
itself looks at that size.

* **`SessionManager.recut`** — a manager with another size of pieces.
* **`IgnoresSize`** — a request goes on in the same way whatever the size is.
* **`uploadAll_congr`** — an upload in pieces yields the same as any other of the same bytes.
* **`runDeploy_congr`** — a deployment of a file yields the same whatever the size is.
* **`deploys_accepted_parts`** — what is deployed is what was uploaded. -/

namespace Deployment

open Stateful SessionManager

namespace SessionManager

/-- A manager with another size of pieces. -/
def recut (k : Nat) (m : SessionManager) : SessionManager :=
  { m with settings := { m.settings with chunkSize := k } }

/-- A request goes on in the same way whatever the size of pieces is. -/
def IgnoresSize {α : Type} (x : Request α) : Prop :=
  ∀ k m, yields x (recut k m) = (yields x m).map fun r => (r.1, recut k r.2)

namespace IgnoresSize

variable {α β : Type} {n : Nat} {a : Account} {u : Upload} {now : Timestamp}

/-- Giving a value has nothing to do with the size of pieces. -/
theorem of_pure (a : α) : IgnoresSize (pure a) := fun _ _ => rfl

/-- Giving a fault has nothing to do with the size of pieces. -/
theorem of_throw (f : SessionFault) : IgnoresSize (throw f : Request α) := fun _ _ => rfl

/-- Requests that ignore the size of pieces do so one after the other. -/
theorem of_bind {x : Request α} {f : α → Request β} (hx : IgnoresSize x)
    (hf : ∀ a, IgnoresSize (f a)) : IgnoresSize (x >>= f) := by
  intro k m
  rw [yields_bind, yields_bind, hx k m]
  cases yields x m with
  | error e => rfl
  | ok r => exact hf r.1 k r.2

/-- What is done with the manager that there is does not hang on the size of pieces. -/
theorem of_get {f : SessionManager → Request α} (hsame : ∀ k m, f (recut k m) = f m)
    (hf : ∀ m, IgnoresSize (f m)) : IgnoresSize (get >>= f) := by
  intro k m
  have hget : ∀ m', yields (get >>= f) m' = yields (f m') m' := fun _ => rfl
  rw [hget, hget, hsame]
  exact hf m k m

/-- A change that can be made before or after the size of pieces is set ignores it. -/
theorem of_modify {f : SessionManager → SessionManager}
    (hf : ∀ k m, f (recut k m) = recut k (f m)) : IgnoresSize (modify f) := by
  intro k m
  have hmod : ∀ m', yields (modify f : Request PUnit) m' = .ok (⟨⟩, f m') := fun _ => rfl
  rw [hmod, hmod, hf]
  rfl

/-- A request under a condition ignores the size of pieces if both of its branches do. -/
theorem of_ite {c : Prop} [Decidable c] {x y : Request α} (hx : IgnoresSize x)
    (hy : IgnoresSize y) : IgnoresSize (if c then x else y) := by
  split
  · exact hx
  · exact hy

/-- A change of the files ignores the size of pieces: the files are beside it. -/
theorem attempt (change : Files α) : IgnoresSize (attempt change) := by
  intro k m
  have hfiles : (recut k m).plant.files = m.plant.files := rfl
  cases h : change m.plant.files with
  | ok v t =>
    rw [yields_of_ok (attempt_of_ok h), yields_of_ok (attempt_of_ok (hfiles ▸ h))]
    rfl
  | error f t =>
    rw [yields_of_ok (attempt_of_error h), yields_of_ok (attempt_of_error (hfiles ▸ h))]
    rfl

/-- So does a job that is handed to the pool. -/
theorem submit (job : DeployJob) : IgnoresSize (submit job) := by
  intro k m
  have hpool : (recut k m).plant.pool = m.plant.pool := rfl
  cases h : Pool.submit job m.plant.pool with
  | ok v t =>
    rw [yields_of_ok (submit_of_ok h), yields_of_ok (submit_of_ok (hpool ▸ h))]
    rfl
  | error f t =>
    rw [yields_of_ok (submit_of_error h), yields_of_ok (submit_of_error (hpool ▸ h))]
    rfl

/-- So does a look at the table of statuses. -/
theorem allow (s t : Status) : IgnoresSize (allow s t) :=
  of_ite (of_pure _) (of_throw _)

/-- An upload is found by its number, whatever the size of pieces. -/
theorem upload (n : Nat) (a : Account) : IgnoresSize (upload n a) := by
  refine of_get (fun _ _ => rfl) fun m => ?_
  split
  · exact of_pure _
  · exact of_throw _

/-- An account finds its upload, whatever the size of pieces. -/
theorem handle (a : Account) : IgnoresSize (handle a) := by
  refine of_get (fun _ _ => rfl) fun m => ?_
  split
  · exact of_pure _
  · exact of_throw _

/-- The record that is saved says nothing of the size of pieces. -/
@[simp] theorem persist (k : Nat) (m : SessionManager) :
    persist n now (recut k m) = recut k (persist n now m) := by
  unfold SessionManager.persist
  cases h : m.uploads[n]? with
  | none => simp only [recut, h]
  | some u =>
    simp only [recut, h]
    cases m.records.save (u.record now) m.plant.files <;> rfl

/-- An upload fails at once in the same way, whatever the size of pieces. -/
theorem failNow (reason : String) : IgnoresSize (failNow n u reason now) :=
  of_bind (of_modify fun _ _ => rfl) fun _ =>
    of_bind (of_modify persist) fun _ => of_modify fun _ _ => rfl

/-- A job is asked for in the same way, whatever the size of pieces. -/
theorem requestDeploy : IgnoresSize (requestDeploy n u now) := by
  refine of_bind (submit u.job) fun r => ?_
  cases r with
  | ok number => exact of_bind (of_modify fun _ _ => rfl) fun _ => of_pure _
  | error f => exact of_bind (failNow _) fun _ => of_throw _

/-- An upload is thrown away in the same way, whatever the size of pieces. -/
theorem abandon : IgnoresSize (abandon n u) := by
  refine of_bind (of_modify fun _ _ => rfl) fun _ => of_bind (of_modify fun _ _ => rfl) fun _ => ?_
  intro k m
  rw [yields_of_ok (removeArchive_eq u m), yields_of_ok (removeArchive_eq u (recut k m))]
  rfl

/-- A part is appended in the same way, whatever the size of pieces. -/
theorem append (bytes : List UInt8) : IgnoresSize (append a bytes) := by
  refine of_bind (handle a) fun n => of_bind (upload n a) fun u => of_bind (allow _ _) fun _ => ?_
  -- An empty part ends the request, but what would follow is the same as for any other part.
  refine of_ite (of_bind abandon fun _ => of_bind (of_throw _) fun _ => ?_) ?_
  all_goals
    refine of_bind (attempt _) fun r => ?_
    cases r with
    | ok w => exact of_modify fun _ _ => rfl
    | error f => exact of_bind abandon fun _ => of_throw _

/-- An upload is ended in the same way, whatever the size of pieces. -/
theorem finalize : IgnoresSize (finalize a now) := by
  refine of_bind (handle a) fun n => of_bind (upload n a) fun u => of_bind (allow _ _) fun _ =>
    of_bind (of_modify fun _ _ => rfl) fun _ => ?_
  cases u.writer with
  | none => exact requestDeploy
  | some w =>
    refine of_bind (attempt _) fun r => ?_
    cases r with
    | ok _ => exact requestDeploy
    | error f => exact of_bind (failNow _) fun _ => of_bind (of_throw _) fun _ => requestDeploy

/-- An upload is registered in the same way, whatever the size of pieces. -/
theorem register {info : ResourceInfo} {requester : String} {id : Ulid} :
    IgnoresSize (register a info requester id now) := by
  -- The chunk size is read nowhere on the way: each step either reads something else or changes it.
  have henter : IgnoresSize (enter a info requester id now) := by
    refine of_bind (of_ite (of_pure _) (of_throw _)) fun _ => of_get (fun _ _ => rfl) fun m => ?_
    have hlast : IgnoresSize (do
        let u := m.newUpload a info requester id now
        modify fun m =>
          { m with uploads := m.uploads ++ [u], live := Keyed.put a m.uploads.length m.live }
        return u) := of_bind (of_modify fun _ _ => rfl) fun _ => of_pure _
    refine of_ite (of_bind (of_throw _) fun _ => ?_) ?_
    · exact of_ite (of_bind (of_throw _) fun _ => hlast) hlast
    · exact of_ite (of_bind (of_throw _) fun _ => hlast) hlast
  have hprepare : IgnoresSize (prepare a) := by
    refine of_get (fun _ _ => rfl) fun m => of_bind (attempt _) fun r => ?_
    cases r with
    | ok _ => exact of_pure _
    | error f => exact of_bind (of_modify fun _ _ => rfl) fun _ => of_throw _
  exact of_bind henter fun u => of_bind hprepare fun _ => of_pure _

end IgnoresSize

/-! ## What happens by itself -/

section
variable (k : Nat) (now : Timestamp) (m : SessionManager)

/-- The end of a job is noted in the same way, whatever the size of pieces. -/
@[simp] theorem noteEnd_recut (t : Ticket) :
    noteEnd now (recut k m) t = recut k (noteEnd now m t) := by
  -- Completing writes the record and the table of uploads, neither of which has the size in it.
  have hcomplete : ∀ r, complete t.job.account r now (recut k m) =
      recut k (complete t.job.account r now m) := by
    intro r
    have hfind : (recut k m).find? t.job.account = m.find? t.job.account := rfl
    simp only [complete, hfind]
    cases m.find? t.job.account with
    | none => rfl
    | some n =>
      simp only [completeAt]
      exact congrArg (unlink t.job.account) (IgnoresSize.persist k (update n _ m))
  have hended : (recut k m).ended? t.number = m.ended? t.number := rfl
  simp only [noteEnd, hended]
  cases m.ended? t.number with
  | none => rfl
  | some r =>
    simp only [hcomplete]
    rfl

/-- All ends are noted in the same way, whatever the size of pieces. -/
@[simp] theorem settle_recut : settle now (recut k m) = recut k (settle now m) := by
  have hfold : ∀ (ts : List Ticket) (m : SessionManager),
      ts.foldl (noteEnd now) (recut k m) = recut k (ts.foldl (noteEnd now) m) := by
    intro ts
    induction ts with
    | nil => exact fun _ => rfl
    | cons t ts ih =>
      intro m
      rw [List.foldl_cons, List.foldl_cons, noteEnd_recut]
      exact ih _
  exact hfold m.pending { m with plant := m.plant.takeAll }

/-- All jobs are run in the same way, whatever the size of pieces. -/
@[simp] theorem runAll_recut : runAll now (recut k m) = recut k (runAll now m) := by
  have hrep : ∀ steps,
      Nat.repeat (runNext now) steps (recut k m) = recut k (Nat.repeat (runNext now) steps m) := by
    intro steps
    induction steps with
    | zero => rfl
    | succ steps ih =>
      rw [Nat.repeat, ih, Nat.repeat]
      exact settle_recut k now { Nat.repeat (runNext now) steps m with
        plant := (Nat.repeat (runNext now) steps m).plant.runNext }
  exact hrep m.plant.pool.unfinished.length

end

end SessionManager

/-! ## Uploads in pieces -/

/-- In settings that can be used, pieces have a size. -/
theorem Settings.chunkSize_of_validate {s : Settings} (h : s.validate = .ok ()) :
    0 < s.chunkSize := by
  refine Nat.pos_of_ne_zero fun hzero => ?_
  simp only [validate, hzero, if_true, Failing.throw_eq] at h
  split at h
  · cases h
  · split at h <;> cases h

section
variable {token : Token} {info : ResourceInfo} {id : Ulid} {now : Timestamp} {m : SessionManager}

/-- A registration leaves a new upload for its account behind. -/
theorem SessionManager.register_ok {a : Account} {requester : String} {r : ResourceId}
    {m' : SessionManager} (h : register a info requester id now m = .ok r m') :
    r.account = a ∧ ∃ n u, m'.InProgress a n u ∧ u.status = .registered ∧ u.writer = none := by
  obtain ⟨f, -, he⟩ | ⟨-, -, -, -, he⟩ := enter_cases m a info requester id now
  · simp only [register, run_bind, he] at h
    cases h
  · simp only [register, run_bind, he] at h
    split at h
    next _ m₁ hp =>
      cases h
      cases hd : Files.createDirectories (m.settings.accountDirectory a) m.plant.files with
      | error f t =>
        rw [prepare_of_error (m := begin a _ m) hd] at hp
        cases hp
      | ok _ t =>
        rw [prepare_of_ok (m := begin a _ m) hd] at hp
        cases hp
        refine ⟨rfl, m.uploads.length, _, ⟨?_, List.getElem?_concat_length⟩, rfl, rfl⟩
        exact (Linked.find?_begin m a a (m.newUpload a info requester id now)).trans (if_pos rfl)
    next => cases h

/-- What parts yield after a registration is told by the bytes that they are together. -/
theorem send_congr {a : Account} {n : Nat} {u : Upload} (hc : m.InProgress a n u)
    (hs : u.status = .registered) (hw : u.writer = none) {parts parts' : List (List UInt8)}
    (hp : ∀ part ∈ parts, part ≠ []) (hp' : ∀ part ∈ parts', part ≠ [])
    (hb : parts.flatten = parts'.flatten) :
    yields (send a parts now) m = yields (send a parts' now) m := by
  -- No parts and only empty parts are told apart here, since an upload without a part goes another
  -- way.
  have hnil : ∀ {parts : List (List UInt8)}, (∀ part ∈ parts, part ≠ []) →
      parts.flatten = [] → parts = [] := by
    intro parts hp hnone
    cases parts with
    | nil => rfl
    | cons part rest =>
      exact absurd (List.append_eq_nil_iff.1 hnone).1 (hp part (List.mem_cons_self ..))
  by_cases hsome : parts.flatten = []
  · rw [hnil hp hsome, hnil hp' (hb ▸ hsome)]
  · rw [send_yields hc hw hs hp hsome, send_yields hc hw hs hp' (hb ▸ hsome), hb]

/-- A token that names somebody is asked for no more. -/
theorem uploadAll_eq (ht : token.isBlank = false) (parts : List (List UInt8)) :
    uploadAll token info parts id now =
      register info.account info token.principal id now >>= fun r => send r.account parts now := by
  simp only [uploadAll, Service.init, Service.chunk, Service.deploy, Service.check, ht,
    Bool.false_eq_true, if_false, pure_bind, Option.getD_some, send]

/-- An upload in pieces yields the same as any other of the same bytes. -/
theorem uploadAll_congr {parts parts' : List (List UInt8)} (hp : ∀ part ∈ parts, part ≠ [])
    (hp' : ∀ part ∈ parts', part ≠ []) (hb : parts.flatten = parts'.flatten) :
    yields (uploadAll token info parts id now) m =
      yields (uploadAll token info parts' id now) m := by
  cases ht : token.isBlank with
  | true =>
    have hinit : yields (Service.init token info id now) m = .error Service.noToken := by
      simp only [Service.init, yields_bind, Service.check, ht, if_true]
      rfl
    simp only [uploadAll, yields_bind, hinit, Failing.error_bind]
  | false =>
    rw [uploadAll_eq ht, uploadAll_eq ht, yields_bind, yields_bind]
    cases hr : register info.account info token.principal id now m with
    | error f m' => rw [yields_of_error hr]; rfl
    | ok r m' =>
      obtain ⟨hown, n, u, hc, hs, hw⟩ := register_ok hr
      rw [yields_of_ok hr]
      exact send_congr (hown ▸ hc) hs hw hp hp' hb

/-- Parts that are given are uploaded in the same way, whatever the size of pieces. -/
theorem uploadAll_ignoresSize {parts : List (List UInt8)} :
    IgnoresSize (uploadAll token info parts id now) := by
  have hcheck : IgnoresSize (Service.check token) := .of_ite (.of_throw _) (.of_pure _)
  refine .of_bind (.of_bind hcheck fun _ => .register) fun r =>
    .of_bind ?_ fun _ => .of_bind hcheck fun _ => .finalize
  induction parts with
  | nil => exact .of_pure _
  | cons part rest ih => exact .of_bind (.of_bind hcheck fun _ => .append _) fun _ => ih

end

/-! ## Deploying a file -/

section
variable {s : Settings} {account archive : String} {owner : Option String} {token : Token}
  {id : Ulid} {now : Timestamp} {t : FileTree}

/-- What is told of an upload in the end, once all that was accepted has run. -/
def concluded (token : Token) (now : Timestamp) (r : DeployHandle × SessionManager) :
    Except CommandFault (DeployOutcome × FileTree) :=
  (outcomeOf token r.1 (r.2.runAll now)).map fun o => (o, (r.2.runAll now).plant.files)

/-- What is told at the end is the same, whatever the size of pieces. -/
theorem concluded_recut (token : Token) (now : Timestamp) (h : DeployHandle) (k : Nat)
    (m : SessionManager) : concluded token now (h, recut k m) = concluded token now (h, m) := by
  -- Whatever the command asks of the manager once its job has ended leaves the chunk size out.
  have hresult : ∀ m : SessionManager, (recut k m).result? h = m.result? h := fun _ => rfl
  have hmanager : ∀ m : SessionManager, (recut k m).status h.resource.account =
      m.status h.resource.account := fun _ => rfl
  have hstatus : ∀ m, Service.status token h.resource (recut k m) =
      Service.status token h.resource m := by
    intro m
    simp only [Service.status, hmanager]
  have houtcome : ∀ m, outcomeOf token h (recut k m) = outcomeOf token h m := by
    intro m
    simp only [outcomeOf, hresult, hstatus]
  have hfiles : ∀ m : SessionManager, (recut k m).plant.files = m.plant.files := fun _ => rfl
  simp only [concluded, runAll_recut, houtcome, hfiles]

/-- Where no pool can be started, the program dies over a file that can be read. -/
theorem runDeploy_of_died {bytes : List UInt8} {info : ResourceInfo}
    (hr : t.read archive = .ok bytes) (hi : uploadInfo account archive owner bytes = .ok info)
    (hstart : canStart s = false) :
    runDeploy s account archive owner token id now t = .error .died t := by
  simp only [runDeploy, hr, hi, hstart, Bool.not_false, if_true]

/-- Otherwise the file is uploaded in pieces and deployed. -/
theorem runDeploy_yields {bytes : List UInt8} {info : ResourceInfo}
    (hr : t.read archive = .ok bytes) (hi : uploadInfo account archive owner bytes = .ok info)
    (hstart : canStart s = true) :
    yields (runDeploy s account archive owner token id now) t =
      (yields (uploadAll token info (pieces s.chunkSize bytes) id now) (start s t .empty)).mapError
        (fun f => .service (.session f)) >>= concluded token now := by
  simp only [yields, runDeploy, hr, hi, hstart, Bool.not_true, Bool.false_eq_true, if_false]
  cases uploadAll token info (pieces s.chunkSize bytes) id now (start s t .empty) with
  | error f m => rfl
  | ok h m =>
    simp only [Failing.mapError_ok, Failing.ok_bind, concluded]
    cases outcomeOf token h (m.runAll now) <;> rfl

/-- A deployment of a file yields the same whatever the size of the pieces is. -/
theorem runDeploy_congr {k k' : Nat} (hk : 0 < k) (hk' : 0 < k') :
    yields (runDeploy { s with chunkSize := k } account archive owner token id now) t =
      yields (runDeploy { s with chunkSize := k' } account archive owner token id now) t := by
  cases hr : t.read archive with
  | error f => simp only [yields, runDeploy, hr]
  | ok bytes =>
    cases hi : uploadInfo account archive owner bytes with
    | error f => simp only [yields, runDeploy, hr, hi]
    | ok info =>
      -- Whether there can be a pool has nothing to do with the size of the pieces.
      have hpool : ∀ k, canStart { s with chunkSize := k } = canStart s := fun _ => rfl
      cases hstart : canStart s with
      | false => simp only [yields, runDeploy_of_died hr hi ((hpool _).trans hstart)]
      | true =>
        -- Whatever the size is, the pieces are uploaded as those of another size are.
        have hsize : ∀ k, yields (runDeploy { s with chunkSize := k } account archive owner token
            id now) t = (yields (uploadAll token info (pieces k bytes) id now)
              (start s t .empty)).mapError (fun f => .service (.session f)) >>=
                concluded token now := by
          intro k
          have hsame : start { s with chunkSize := k } t .empty = recut k (start s t .empty) := rfl
          rw [runDeploy_yields hr hi ((hpool k).trans hstart), hsame, uploadAll_ignoresSize]
          dsimp only
          cases yields (uploadAll token info (pieces k bytes) id now) (start s t .empty) with
          | error f => rfl
          | ok r => simp only [Except.map, Failing.mapError_ok, Failing.ok_bind, concluded_recut]
        rw [hsize k, hsize k', uploadAll_congr (fun _ => ne_nil_of_mem_pieces)
          (fun _ => ne_nil_of_mem_pieces)
          ((pieces_flatten hk bytes).trans (pieces_flatten hk' bytes).symm)]

end

/-- A file that is deployed is reported as what its deployment yields. -/
theorem Command.deploy_report (account archive : String) (owner : Option String) (token : String)
    (s : Settings) (json : Bool) (id : Ulid) (now : Timestamp) (t : FileTree) :
    ((Command.deploy account archive owner token).run s json id now t).1 =
      match yields (runDeploy s account archive owner ⟨token⟩ id now) t with
      | .ok r => outcomeReport json r.1
      | .error f => failure f := by
  simp only [Command.run, yields]
  cases runDeploy s account archive owner ⟨token⟩ id now t <;> rfl

/-- What is deployed is what was uploaded, however it was cut. -/
theorem deploys_accepted_parts (s : Settings) (hs : s.validate = .ok ()) :
    -- A job reads all the parts that its upload accepted, and nothing else.
    (∀ (t : FileTree) (md : Metadata) (es : List Event), (∀ e ∈ es, e.KeepsFiles) →
      ∀ n k, (some n, k) ∈ outstanding ((start s t md).journal es) →
        partsOf n ((start s t md).journal es) ≠ [] →
        ((start s t md).after es).plant.files.read k.job.archive =
            .ok (partsOf n ((start s t md).journal es)).flatten ∧
          ∀ t', t'.read k.job.archive = .ok (partsOf n ((start s t md).journal es)).flatten →
            k.job.run ((start s t md).after es).plant.files = k.job.run t') ∧
    -- A file is deployed with the same result whatever the size of the pieces is.
    (∀ account archive owner token id now json t k k', 1 ≤ k → 1 ≤ k' →
      ((Command.deploy account archive owner token).run { s with chunkSize := k } json id now t).1 =
        ((Command.deploy account archive owner token).run { s with chunkSize := k' }
          json id now t).1) := by
  have hn := Settings.isPlainName_of_validate hs
  refine ⟨fun t md es quiet n k ho hparts => ?_, ?_⟩
  · have hk := (Kept.start s t md).after hn quiet
    rw [List.nil_append] at hk
    have hread := hk.read_of_outstanding ho hparts
    exact ⟨hread, fun t' ht' => DeployJob.run_congr (hread.trans ht'.symm)⟩
  · intro account archive owner token id now json t k k' hk hk'
    rw [Command.deploy_report, Command.deploy_report, runDeploy_congr hk hk']

open Sample in
/-- The descriptor that an account has uploaded is what its job reads. -/
theorem descriptor_is_read :
    (service.after (begins 0 :: .append account descriptor :: ends)).plant.files.read job.archive =
      .ok descriptor := by
  have hparts : partsOf 0 (service.journal (begins 0 :: .append account descriptor :: ends)) =
      [descriptor] := by decide +kernel
  have hread := ((deploys_accepted_parts settings rfl).1 .empty .empty
    (begins 0 :: .append account descriptor :: ends) (by simp [begins, ends, Event.KeepsFiles]) 0
    ⟨0, job⟩ (by decide +kernel) (by rw [← service, hparts]; simp)).1
  rwa [← service, hparts, List.flatten_singleton] at hread

end Deployment
