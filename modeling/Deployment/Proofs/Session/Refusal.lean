import Deployment.Proofs.Session.Correspondence
import Deployment.Service

/-! # Requests that fail

A request that fails is either refused before it changed anything, or it brings the upload that it
was about to its end. Nothing in between is ever left behind.

* **`Call`** — a request with its token; **`Call.serve`** — what the service does with it.
* **`Call.Harmless`** — the faults after which everything has to be as it was.
* **`Refusal`** — what a request does that fails; **`refusal`** — it is nothing else.
* **`fault_is_all_or_nothing`** — what follows for uploads, jobs and records. -/

namespace Deployment

open Stateful SessionManager

/-! ## Requests -/

/-- A request of a client. -/
inductive Call where
  | init (token : Token) (info : ResourceInfo) (id : Ulid) (now : Timestamp)
  | chunk (token : Token) (r : ResourceId) (bytes : Option (List UInt8))
  | deploy (token : Token) (r : ResourceId) (now : Timestamp)
  | status (token : Token) (r : ResourceId)

namespace Call

/-- The account that a request is about. -/
def account : Call → Account
  | .init _ info _ _ => info.account
  | .chunk _ r _ => r.account
  | .deploy _ r _ => r.account
  | .status _ r => r.account

/-- What the service does with a request; of its answer only faults are kept. -/
def serve : Call → Request Unit
  | .init token info id now => do
    let _ ← Service.init token info id now
  | .chunk token r bytes => Service.chunk token r bytes
  | .deploy token r now => do
    let _ ← Service.deploy token r now
  | .status token r => fun m => match Service.status token r m with
    | .ok _ => .ok () m
    | .error f => .error f m

/-- The fault of a request that fails. -/
def fault? (c : Call) (m : SessionManager) : Option SessionFault :=
  match c.serve m with
  | .ok _ _ => none
  | .error f _ => some f

/-- A request that has a fault to expect is refused with it. -/
theorem serve_of_fault? {c : Call} {m : SessionManager} {f : SessionFault}
    (h : c.fault? m = some f) : ∃ m', c.serve m = .error f m' := by
  rw [fault?] at h
  cases hs : c.serve m with
  | ok _ m' => rw [hs] at h; cases h
  | error g m' =>
    rw [hs] at h
    obtain rfl : g = f := Option.some.inj h
    exact ⟨m', rfl⟩

/-- The request asks how far an upload has come. -/
def isStatus : Call → Bool
  | .status _ _ => true
  | _ => false

/-- The request sends an empty part, or none, for an upload that still receives parts. -/
def SendsNothing (m : SessionManager) : Call → Prop
  | .chunk _ r bytes => bytes.getD [] = [] ∧ ∃ n u, m.InProgress r.account n u ∧
      (u.status = .registered ∨ u.status = .uploading)
  | _ => False

/-- The token names nobody. -/
def isAnonymous : Call → Bool
  | .init token _ _ _ => token.isBlank
  | .chunk token _ _ => token.isBlank
  | .deploy token _ _ => token.isBlank
  | .status token _ => token.isBlank

/-- A fault after which everything has to be as it was: the request only asks, or it may not be made
and is not an empty part that somebody sends for an upload. -/
def Harmless (c : Call) (f : SessionFault) (m : SessionManager) : Prop :=
  c.isStatus = true ∨
    f.isClientFault = true ∧ ¬ (c.isAnonymous = false ∧ c.SendsNothing m)

end Call

/-! ## What a request does that fails -/

/-- What a request does that fails. -/
inductive Refusal (m : SessionManager) (c : Call) (f : SessionFault) : SessionManager → Prop where
  | untouched (harmless : c.Harmless f m) : Refusal m c f m
  | unprepared {t : FileTree} {u : Upload} (harmful : ¬ c.Harmless f m)
      (kind : ∀ token r now, c ≠ .deploy token r now) (idle : m.find? c.account = none) :
      Refusal m c f (unlink c.account (withFiles t (begin c.account u m)))
  | thrownAway {n : Nat} {u : Upload} {t : FileTree} (harmful : ¬ c.Harmless f m)
      (kind : ∀ token r now, c ≠ .deploy token r now) (current : m.InProgress c.account n u)
      (may : u.status.allows .uploading = true) :
      Refusal m c f (withFiles t (unlink u.account (put n u.thrownAway m)))
  | failed {token : Token} {r : ResourceId} {now : Timestamp} {n : Nat} {u : Upload} {p : Pool}
      {reason : String} (harmful : ¬ c.Harmless f m) (kind : c = .deploy token r now)
      (current : m.InProgress c.account n u)
      (may : u.status.allows .verifying = true) (cause : f.causes.head? = some reason)
      (pool : m.plant.pool.Works p) :
      Refusal m c f (unlink u.account (withFiles
        (finalState (m.records.save ((u.failedFor reason).record now))
          (finalState u.close m.plant.files))
        (withPool p (put n (u.failedFor reason) m))))

namespace SessionManager

variable {m m' : SessionManager} {a : Account} {f : SessionFault}

/-- A registration that fails was refused, or the directory of the account could not be made. -/
theorem register_error {info : ResourceInfo} {requester : String} {id : Ulid} {now : Timestamp}
    (h : register a info requester id now m = .error f m') :
    (f.isClientFault = true ∧ m' = m) ∨
      (f.isClientFault = false ∧ m.find? a = none ∧
        ∃ t u, m' = unlink a (withFiles t (begin a u m))) := by
  obtain ⟨g, hclient, he⟩ | ⟨-, -, -, hidle, he⟩ := enter_cases m a info requester id now
  · simp only [register, run_bind, he] at h
    cases h
    exact .inl ⟨hclient, rfl⟩
  · simp only [register, run_bind, he] at h
    refine .inr ?_
    cases hd : Files.createDirectories (m.settings.accountDirectory a) m.plant.files with
    | ok _ t =>
      rw [prepare_of_ok (m := begin a _ m) hd] at h
      cases h
    | error g t =>
      rw [prepare_of_error (m := begin a _ m) hd] at h
      cases h
      exact ⟨rfl, hidle, t, _, rfl⟩

/-- A part that is not accepted was refused, or the upload is thrown away: the part was empty, or
could not be written. -/
theorem append_error {bytes : List UInt8} (h : append a bytes m = .error f m') :
    (f.isClientFault = true ∧ m' = m ∧
      ∀ n u, m.InProgress a n u → u.status.allows .uploading = false) ∨
      (∃ n u t, m.InProgress a n u ∧ u.status.allows .uploading = true ∧
        (bytes = [] ∨ f.isClientFault = false) ∧
        m' = withFiles t (unlink u.account (put n u.thrownAway m))) := by
  cases hf : m.find? a with
  | none =>
    simp only [append, run_bind, handle_of_idle hf] at h
    cases h
    exact .inl ⟨rfl, rfl, fun n u hc => by cases hf.symm.trans hc.find⟩
  | some n =>
    simp only [append, run_bind, handle_of_find hf] at h
    cases hu : m.uploads[n]? with
    | none =>
      simp only [appendTo, run_bind, upload_of_unknown hu] at h
      cases h
      refine .inl ⟨rfl, rfl, fun n' u hc => ?_⟩
      cases hf.symm.trans hc.find
      cases hu.symm.trans hc.known
    | some u =>
      have hc : m.InProgress a n u := ⟨hf, hu⟩
      cases hmay : u.status.allows .uploading with
      | false =>
        simp only [appendTo, run_bind, upload_of_known hu, allow, hmay, Bool.false_eq_true,
          if_false, run_throw] at h
        cases h
        refine .inl ⟨rfl, rfl, fun n' u' hc' => ?_⟩
        obtain ⟨rfl, rfl⟩ := hc.unique hc'
        exact hmay
      | true =>
        refine .inr ⟨n, u, ?_⟩
        -- From here on the upload is thrown away, whatever the fault is.
        cases bytes with
        | nil =>
          rw [appendTo_of_empty hu hmay] at h
          cases h
          exact ⟨_, hc, hmay, .inl rfl, rfl⟩
        | cons b bytes =>
          cases hw : u.write (b :: bytes) m.plant.files with
          | ok w t =>
            rw [appendTo_of_written hu hmay rfl hw] at h
            cases h
          | error g t =>
            rw [appendTo_of_fault hu hmay rfl hw] at h
            cases h
            exact ⟨_, hc, hmay, .inr rfl, rfl⟩

/-- An end that fails was refused, or the upload is recorded as failed. -/
theorem finalize_error {now : Timestamp} (h : finalize a now m = .error f m') :
    (f.isClientFault = true ∧ m' = m) ∨
      (f.isClientFault = false ∧ ∃ n u reason p, m.InProgress a n u ∧
        u.status.allows .verifying = true ∧ f.causes.head? = some reason ∧
        m.plant.pool.Works p ∧
        m' = unlink u.account (withFiles
          (finalState (m.records.save ((u.failedFor reason).record now))
            (finalState u.close m.plant.files))
          (withPool p (put n (u.failedFor reason) m)))) := by
  cases hf : m.find? a with
  | none =>
    simp only [finalize, run_bind, handle_of_idle hf] at h
    cases h
    exact .inl ⟨rfl, rfl⟩
  | some n =>
    simp only [finalize, run_bind, handle_of_find hf] at h
    cases hu : m.uploads[n]? with
    | none =>
      simp only [finalizeAt, run_bind, upload_of_unknown hu] at h
      cases h
      exact .inl ⟨rfl, rfl⟩
    | some u =>
      -- A client at fault changes nothing; ours ends the upload as failed and tries to say so on
      -- disk.
      rcases finalizeAt_cases hu a now with ⟨-, g, hclient, hall⟩ | ⟨hmay,
        ⟨t, p, number, -, -, hall⟩ | ⟨g, reason, t, p, hours, hcause, rfl, hworks, -, hall⟩⟩
      · cases hall.symm.trans h
        exact .inl ⟨hclient, rfl⟩
      · cases hall.symm.trans h
      · cases hall.symm.trans h
        exact .inr ⟨hours, n, u, reason, p, ⟨hf, hu⟩, hmay, hcause, hworks, rfl⟩

end SessionManager

namespace Call

variable {m m' : SessionManager} {c : Call} {f : SessionFault}

/-- A fault for which the client is not to blame is harmless only where nothing was asked for but
the status. -/
theorem not_harmless (hc : c.isStatus = false) (hf : f.isClientFault = false) :
    ¬ c.Harmless f m := by
  rintro (h | ⟨h, -⟩)
  · rw [hc] at h; cases h
  · rw [hf] at h; cases h

/-- A request whose token names nobody is refused. -/
theorem refused_of_anonymous (hname : c.isAnonymous = true) :
    c.serve m = .error Service.noToken m := by
  cases c <;> simp only [isAnonymous] at hname <;>
    simp only [serve, Service.init, Service.chunk, Service.deploy, Service.status, run_bind,
      Service.check, hname, if_true, run_throw]

/-- A request whose token names nobody changes nothing. -/
theorem serve_of_anonymous (hname : c.isAnonymous = true) (h : c.serve m = .error f m') :
    c.Harmless f m ∧ m' = m := by
  cases (refused_of_anonymous hname).symm.trans h
  -- Whatever the request sends, nobody sends it.
  exact ⟨.inr ⟨rfl, fun hsent => by rw [hname] at hsent; cases hsent.1⟩, rfl⟩

/-- What is asked of the manager by a request whose token names somebody. -/
def ask : Call → Request Unit
  | .init token info id now => do
    let _ ← register info.account info token.principal id now
  | .chunk _ r bytes => append r.account (bytes.getD [])
  | .deploy _ r now => do
    let _ ← finalize r.account now
  | .status _ r => fun m => match m.status r.account with
    | .ok _ => .ok () m
    | .error f => .error f m

/-- A request whose token names somebody is asked of the manager. -/
theorem serve_of_named (hname : c.isAnonymous = false) : c.serve m = c.ask m := by
  cases c <;> simp only [isAnonymous] at hname <;>
    simp only [serve, ask, Service.init, Service.chunk, Service.deploy, Service.status, run_bind,
      Service.check, hname, Bool.false_eq_true, if_false, run_pure]

/-- A part that is not accepted is refused without harm, or the upload is thrown away. -/
theorem refusal_chunk {token : Token} {r : ResourceId} {bytes : Option (List UInt8)}
    (hname : token.isBlank = false) (h : append r.account (bytes.getD []) m = .error f m') :
    Refusal m (.chunk token r bytes) f m' := by
  obtain ⟨hclient, rfl, hshut⟩ | ⟨n, u, t, hc, hmay, hwhy, rfl⟩ := append_error h
  · refine .untouched (.inr ⟨hclient, fun hsent => ?_⟩)
    obtain ⟨-, n, u, hc, hopen⟩ := hsent.2
    exact absurd (Status.allows_uploading.2 hopen) (by simp [hshut n u hc])
  · refine .thrownAway ?_ nofun hc hmay
    -- The one fault of a client that does harm: a named caller who sends nothing to an open upload.
    rcases hwhy with hempty | hours
    · rintro (hstatus | ⟨-, hsent⟩)
      · cases hstatus
      · exact hsent ⟨hname, hempty, n, u, hc, Status.allows_uploading.1 hmay⟩
    · exact not_harmless rfl hours

/-- A request that fails is one of few things. -/
theorem refusal (h : c.serve m = .error f m') : Refusal m c f m' := by
  cases hname : c.isAnonymous with
  | true =>
    obtain ⟨hharmless, rfl⟩ := serve_of_anonymous hname h
    exact .untouched hharmless
  | false =>
    rw [serve_of_named hname] at h
    -- The calls answer what their operation answers, so each fault is one of the operation.
    cases c with
    | init token info id now =>
      obtain ⟨hclient, rfl⟩ | ⟨hours, hidle, t, u, rfl⟩ := register_error (run_bind_pure_error h)
      · exact .untouched (.inr ⟨hclient, fun hsent => hsent.2⟩)
      · exact .unprepared (not_harmless rfl hours) nofun hidle
    | chunk token r bytes => exact refusal_chunk hname h
    | deploy token r now =>
      obtain ⟨hclient, rfl⟩ | ⟨hours, n, u, reason, p, hc, hmay, hcause, hworks, rfl⟩ :=
        finalize_error (run_bind_pure_error h)
      · exact .untouched (.inr ⟨hclient, fun hsent => hsent.2⟩)
      · exact .failed (not_harmless rfl hours) rfl hc hmay hcause hworks
    | status token r =>
      obtain rfl : m' = m := by
        simp only [ask] at h
        split at h <;> cases h
        rfl
      exact .untouched (.inl rfl)

end Call

/-! ## All or nothing -/

/-- What is true of a request that failed. -/
structure AllOrNothing (m : SessionManager) (c : Call) (f : SessionFault) (m' : SessionManager) :
    Prop where
  /-- A harmless fault leaves everything as it was. -/
  nothing : c.Harmless f m → m' = m
  /-- After any other the account has no upload, -/
  gone : ¬ c.Harmless f m → m'.find? c.account = none
  /-- and no job of the account waits or is worked on. -/
  noJob : ¬ c.Harmless f m → ∀ k ∈ m'.plant.pool.unfinished, k.job.account ≠ c.account
  /-- The upload that was to be deployed is recorded as failed, for the reason of the fault. -/
  recorded : ¬ c.Harmless f m → ∀ token r now, c = .deploy token r now →
    ∃ n u reason, m.InProgress c.account n u ∧ f.causes.head? = some reason ∧
      m'.plant.files = finalState
        (m.records.save { u.record now with status := .failed, error := some reason })
        (finalState u.close m.plant.files)
  /-- Whatever is in progress afterwards was so before. -/
  whole : ∀ a n, m'.find? a = some n → m.find? a = some n ∧ m'.uploads[n]? = m.uploads[n]?
  /-- Other accounts have what they had. -/
  others : ∀ a, a ≠ c.account → m'.find? a = m.find? a

namespace Linked

variable {h : List Note} {m : SessionManager} {a : Account}

/-- An account without an open job has none in the pool. -/
theorem no_job (hl : Linked h m) (hj : jobsOf a h = []) :
    ∀ k ∈ m.plant.pool.unfinished, k.job.account ≠ a := by
  rintro k hk rfl
  obtain ⟨_, _, -, -, -, hone⟩ := hl.of_pending (hl.unfinished.mem hk)
  rw [hj] at hone
  cases hone

/-- After an upload of the account is gone the account has none, and of the others each has what it
had. -/
theorem gone {n : Nat} {u v : Upload} (hl : Linked h m) (m' : SessionManager)
    (hc : m.InProgress a n u) (hfind : m'.find? = (unlink u.account (m.put n v)).find?)
    (hup : m'.uploads = (m.put n v).uploads) :
    m'.find? a = none ∧
      (∀ b k, m'.find? b = some k → m.find? b = some k ∧ m'.uploads[k]? = m.uploads[k]?) ∧
      ∀ b, b ≠ a → m'.find? b = m.find? b := by
  have hb : ∀ b, m'.find? b = if a = b then none else m.find? b := by
    intro b
    rw [hfind, hl.own hc]
    exact find?_unlink (m.put n v) a b
  refine ⟨by rw [hb, if_pos rfl], fun b k hk => ?_, fun b hba => by rw [hb, if_neg (Ne.symm hba)]⟩
  rw [hb] at hk
  split at hk
  · cases hk
  next hab =>
    obtain ⟨w, hw⟩ := hl.known hk
    refine ⟨hk, ?_⟩
    -- The upload of another account has another number, so the change has not met it.
    rw [hup, known_put hc.known hw.known (by rw [hl.own hc, hl.own hw]; exact Ne.symm hab),
      hw.known]

/-- Whatever a request does that fails, it is all or nothing. -/
theorem all_or_nothing {c : Call} {f : SessionFault} {m' : SessionManager} (hl : Linked h m)
    (hr : Refusal m c f m') : AllOrNothing m c f m' := by
  cases hr with
  | untouched harmless =>
    exact ⟨fun _ => rfl, fun h => absurd harmless h, fun h => absurd harmless h,
      fun h => absurd harmless h, fun _ _ ha => ⟨ha, rfl⟩, fun _ _ => rfl⟩
  | @unprepared t u harmful kind idle =>
    -- The session was opened and taken away again within the call.
    have hfind : ∀ b, (unlink c.account (withFiles t (begin c.account u m))).find? b =
        if c.account = b then none else m.find? b := by
      intro b
      rw [Linked.find?_unlink]
      split
      · rfl
      next hne => exact (Linked.find?_begin m c.account b u).trans (if_neg hne)
    refine ⟨fun h => absurd h harmful, fun _ => by rw [hfind, if_pos rfl],
      fun _ => hl.no_job (hl.jobsOf_of_idle idle),
      fun _ _ _ _ hdeploy => absurd hdeploy (kind _ _ _), fun b n hn => ?_, fun b hb => ?_⟩
    · rw [hfind] at hn
      split at hn
      · cases hn
      · obtain ⟨w, hw⟩ := hl.known hn
        exact ⟨hn, (known_begin hw.known u).trans hw.known.symm⟩
    · rw [hfind, if_neg (Ne.symm hb)]
  | @thrownAway n u t harmful kind current may =>
    obtain ⟨hnone, hwhole, hothers⟩ :=
      hl.gone (withFiles t (unlink u.account (m.put n u.thrownAway))) current rfl rfl
    -- The upload was still open, so no job stands in for it.
    have hj := hl.jobsOf_of_open current (Status.allows_uploading.1 may)
    exact ⟨fun h => absurd h harmful, fun _ => hnone, fun _ => hl.no_job hj,
      fun _ _ _ _ hdeploy => absurd hdeploy (kind _ _ _), hwhole, hothers⟩
  | @failed token r now n u p reason harmful kind current may cause pool =>
    obtain ⟨hnone, hwhole, hothers⟩ := hl.gone (unlink u.account (withFiles
      (finalState (m.records.save ((u.failedFor reason).record now))
        (finalState u.close m.plant.files)) (withPool p (m.put n (u.failedFor reason)))))
      current rfl rfl
    have hj := hl.jobsOf_of_open current (Status.allows_verifying.1 may)
    refine ⟨fun h => absurd h harmful, fun _ => hnone,
      fun _ k hk => hl.no_job hj k (pool.unfinished.mem hk), fun _ token' r' now' hdeploy => ?_,
      hwhole, hothers⟩
    obtain ⟨-, -, rfl⟩ : token = token' ∧ r = r' ∧ now = now' := by
      simpa using kind.symm.trans hdeploy
    exact ⟨n, u, reason, current, cause, rfl⟩

end Linked

/-- A request that fails does all or nothing, after any run: where only the status was asked for, or
the request may not be made and is not an empty part that somebody sends for an upload in progress,
everything is as it was. Otherwise the upload of the account is gone, and if it was to be deployed
it is recorded as failed. -/
theorem fault_is_all_or_nothing (s : Settings) (t : FileTree) (md : Metadata) (es : List Event)
    (c : Call) (f : SessionFault) (m' : SessionManager)
    (h : c.serve ((start s t md).after es) = .error f m') :
    AllOrNothing ((start s t md).after es) c f m' :=
  (Linked.after s t md es).all_or_nothing (c.refusal h)

open Sample in
/-- An end that a closed pool refuses leaves neither an upload nor a job, and is recorded. -/
theorem refused_end_leaves_nothing :
    let m := service.after [begins 0, .append account descriptor, .close]
    let c : Call := .deploy ⟨"alice"⟩ (fresh 0).resource now
    ∃ f m', c.serve m = .error f m' ∧ f.causes.head? = some "deploy pool is shut down" ∧
      m'.find? account = none ∧ (∀ k ∈ m'.plant.pool.unfinished, k.job.account ≠ account) ∧
      ∃ u, m.InProgress account 0 u ∧ m'.plant.files = finalState
        (m.records.save
          { u.record now with status := .failed, error := some "deploy pool is shut down" })
        (finalState u.close m.plant.files) := by
  intro m c
  have hfault : (c.fault? m).map (fun f => (f.isClientFault, f.causes.head?)) =
      some (false, some "deploy pool is shut down") := by decide +kernel
  obtain ⟨f, hf, hwhy⟩ := Option.map_eq_some_iff.1 hfault
  obtain ⟨hours, hcause⟩ := Prod.mk.inj hwhy
  obtain ⟨m', hserve⟩ := Call.serve_of_fault? hf
  have hall := fault_is_all_or_nothing settings .empty .empty
    [begins 0, .append account descriptor, .close] c f m' hserve
  have hharmful : ¬ c.Harmless f m := Call.not_harmless rfl hours
  obtain ⟨n, u, reason, hc, hreason, hfiles⟩ := hall.recorded hharmful ⟨"alice"⟩ _ now rfl
  obtain rfl : "deploy pool is shut down" = reason :=
    Option.some.inj (hcause.symm.trans hreason)
  -- There is just one upload, so it is the one whose end was written.
  obtain rfl : n = 0 := Option.some.inj (hc.find.symm.trans (by decide +kernel))
  exact ⟨f, m', hserve, hcause, hall.gone hharmful, hall.noJob hharmful, u, hc, hfiles⟩

open Sample in
/-- An empty part under a token that names nobody leaves the upload in progress. -/
theorem empty_part_of_nobody_spares_upload :
    let m := service.after [begins 0]
    let c : Call := .chunk ⟨""⟩ (fresh 0).resource none
    c.SendsNothing m ∧ c.serve m = .error Service.noToken m ∧
      Service.noToken.isClientFault = true ∧ m.find? c.account = some 0 := by
  intro m c
  have begun : m.InProgress account 0 (fresh 0) := ⟨rfl, rfl⟩
  exact ⟨⟨rfl, 0, fresh 0, begun, .inl rfl⟩, rfl, rfl, begun.find⟩

end Deployment
