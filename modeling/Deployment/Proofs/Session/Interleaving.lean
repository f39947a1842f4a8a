import Deployment.Proofs.Session.Correspondence

/-! # Requests that come between each other

An operation looks its upload up in the table, and works on what it found later, when other
operations may have come in between. A registration enters its upload before it makes the directory,
and an upload that is thrown away leaves the table before its archive is deleted; while it is
deleted no part, no deployment and no end of it goes on; only a registration, which holds no lock of
its upload, does not wait for that.

* **`Client`**, **`Flight`** — who has an operation under way, and what is left of it.
* **`Traffic`** — the manager with the operations that are under way.
* **`Act`**, **`Act.step`** — what can happen, one half of an operation at a time.
* **`Flight.Course`** — all that the second half of an operation can do.
* **`Course.files`** — and what of that it does to the files.
* **`uninterrupted`** — both halves together are the operation. -/

namespace Deployment

open Stateful SessionManager

/-! ## Throwing an upload away in two steps -/

namespace SessionManager

/-- Take an upload out of the table; its archive is still to be deleted. -/
def throwAway (n : Nat) (u : Upload) : Request Unit := do
  modify (update n fun u => { u with writer := none })
  modify (unlink u.account)

/-- Append a part to the archive of the upload of a number. If that throws the upload away, the
fault is given, and the archive is still to be deleted. -/
def appendFirst (n : Nat) (a : Account) (bytes : List UInt8) : Request (Option SessionFault) := do
  let u ← upload n a
  allow u.status .uploading
  if bytes.isEmpty then
    throwAway n u
    return some (.badRequest "invalid chunk received")
  match ← attempt (u.write bytes) with
  | .ok w =>
    modify (update n fun u => { u with writer := some w, status := .uploading })
    return none
  | .error f =>
    throwAway n u
    return some (.storage a f)

/-- Delete the archive of an upload that was thrown away. -/
def deleteArchive (n : Nat) : Request Unit := do
  match (← get).uploads[n]? with
  | some u => removeArchive u
  | none => pure ()

variable {m : SessionManager} {a : Account} {n : Nat} {u : Upload}

/-- An upload that is thrown away leaves the table, and its archive stays for now. -/
theorem throwAway_eq (h : m.uploads[n]? = some u) :
    throwAway n u m = .ok () (unlink u.account (put n u.thrownAway m)) := by
  have hu : update n (fun u => { u with writer := none }) m = put n u.thrownAway m :=
    update_eq_put h _
  simp only [throwAway, run_bind, run_modify, hu]

/-- The archive of an upload that there is is taken away, if it can be. -/
theorem deleteArchive_eq (h : m.uploads[n]? = some u) : deleteArchive n m =
    .ok () (withFiles (finalState (Files.remove u.archive) m.plant.files) m) := by
  simp only [deleteArchive, run_bind, run_get, h, removeArchive_eq]

/-- What the first step of appending does to an upload that there is. -/
theorem appendFirst_cases (h : m.uploads[n]? = some u) (a : Account) (bytes : List UInt8) :
    (u.status.allows .uploading = false ∧
        ∃ f, appendFirst n a bytes m = .error f m ∧ appendTo n a bytes m = .error f m) ∨
      u.status.allows .uploading = true ∧
        ((∃ w t, bytes ≠ [] ∧ u.write bytes m.plant.files = .ok w t ∧
            appendFirst n a bytes m = .ok none (withFiles t (put n (u.receiving w) m)) ∧
            appendTo n a bytes m = .ok () (withFiles t (put n (u.receiving w) m))) ∨
          ∃ f t, (t = m.plant.files ∨ ∃ g, u.write bytes m.plant.files = .error g t) ∧
            appendFirst n a bytes m =
              .ok (some f) (withFiles t (unlink u.account (put n u.thrownAway m))) ∧
            appendTo n a bytes m = .error f
              (withFiles (finalState (Files.remove u.archive) t)
                (unlink u.account (put n u.thrownAway m)))) := by
  cases ha : u.status.allows .uploading with
  | false =>
    refine .inl ⟨rfl, .badRequest (u.status.refusal .uploading), ?_, ?_⟩
    · simp only [appendFirst, run_bind, upload_of_known h, allow, ha, Bool.false_eq_true, if_false,
        run_throw]
    · simp only [appendTo, run_bind, upload_of_known h, allow, ha, Bool.false_eq_true, if_false,
        run_throw]
  | true =>
    refine .inr ⟨rfl, ?_⟩
    -- An empty part is refused before the files are asked; any other may still fail in them.
    cases bytes with
    | nil =>
      refine .inr ⟨_, m.plant.files, .inl rfl, ?_, appendTo_of_empty h ha⟩
      simp only [appendFirst, run_bind, upload_of_known h, allow, ha, if_true, run_pure,
        List.isEmpty_nil, throwAway_eq h]
      rfl
    | cons b bytes =>
      have hb : (b :: bytes).isEmpty = false := rfl
      cases hw : u.write (b :: bytes) m.plant.files with
      | ok w t =>
        refine .inl ⟨w, t, by simp, rfl, ?_, appendTo_of_written h ha hb hw⟩
        simp only [appendFirst, run_bind, upload_of_known h, allow, ha, if_true, run_pure, hb,
          Bool.false_eq_true, if_false, attempt_of_ok hw, run_modify]
        rw [update_eq_put (m := m.withFiles t) h]
        rfl
      | error f t =>
        refine .inr ⟨_, t, .inr ⟨f, rfl⟩, ?_, appendTo_of_fault h ha hb hw⟩
        simp only [appendFirst, run_bind, upload_of_known h, allow, ha, if_true, run_pure, hb,
          Bool.false_eq_true, if_false, attempt_of_error hw,
          throwAway_eq (m := m.withFiles t) h]
        rfl

/-- Appending a part is its first step, and then the deletion of the archive if the upload was
thrown away. -/
theorem appendTo_eq (n : Nat) (a : Account) (bytes : List UInt8) :
    appendTo n a bytes = (do
      match ← appendFirst n a bytes with
      | none => pure ()
      | some f =>
        deleteArchive n
        throw f) := by
  funext m
  cases h : m.uploads[n]? with
  | none => simp only [appendTo, appendFirst, run_bind, upload_of_unknown h]
  | some u =>
    rw [run_bind]
    rcases appendFirst_cases h a bytes with ⟨-, f, hfirst, hall⟩ |
      ⟨-, ⟨w, t, -, -, hfirst, hall⟩ | ⟨f, t, -, hfirst, hall⟩⟩
    · rw [hall, hfirst]
    · rw [hall, hfirst]
      rfl
    · -- throwing the upload away leaves it its path, so that the archive is found again
      rw [hall, hfirst]
      have hthrown : (withFiles t (unlink u.account (put n u.thrownAway m))).uploads[n]? =
          some u.thrownAway := Linked.known_put_self h _
      simp only [run_bind, deleteArchive_eq hthrown, run_throw]
      rfl

end SessionManager

/-! ## Operations under way -/

/-- Who has an operation under way: a caller, or whoever waits for the end of a job. -/
inductive Client where
  | caller (number : Nat)
  | watcher (job : Nat)
  deriving DecidableEq, Repr

/-- What a caller asks for. -/
inductive Operation where
  | register (a : Account) (info : ResourceInfo) (requester : String) (id : Ulid)
      (now : Timestamp)
  | append (a : Account) (bytes : List UInt8)
  | finalize (a : Account) (now : Timestamp)

/-- An operation of which one half was done, with the number of its upload. -/
inductive Flight where
  /-- The upload was entered; the directory is still to be made. -/
  | preparing (a : Account) (n : Nat)
  | appending (a : Account) (n : Nat) (bytes : List UInt8)
  /-- The upload was thrown away; the archive is still to be deleted. -/
  | deleting (a : Account) (n : Nat)
  | finalizing (a : Account) (n : Nat) (now : Timestamp)
  | completing (k : Ticket) (n : Nat) (now : Timestamp)
  deriving DecidableEq

namespace Flight

/-- The account of the operation. -/
def account : Flight → Account
  | .preparing a _ | .appending a _ _ | .deleting a _ | .finalizing a _ _ => a
  | .completing k _ _ => k.job.account

/-- The upload that the operation works on. -/
def upload : Flight → Nat
  | .preparing _ n | .appending _ n _ | .deleting _ n | .finalizing _ n _ | .completing _ n _ => n

/-- The archive of the upload is still to be deleted. -/
def isDeleting : Flight → Bool
  | .deleting _ _ => true
  | _ => false

/-- The operation waits while somebody else deletes the archive of its upload. A registration works
on without the lock of its upload, and whoever deletes the archive has the lock. -/
def waits : Flight → Bool
  | .preparing _ _ | .deleting _ _ => false
  | .appending _ _ _ | .finalizing _ _ _ | .completing _ _ _ => true

/-- The second half of an operation: what it does to the manager, and what is left of it then. A
deployment that has ended has one result, whenever it is asked for. -/
def proceed (f : Flight) (m : SessionManager) : SessionManager × Option Flight :=
  match f with
  | .preparing a _ => (finalState (prepare a) m, none)
  | .appending a n bytes => match appendFirst n a bytes m with
    | .ok (some _) m' => (m', some (.deleting a n))
    | .ok none m' => (m', none)
    | .error _ m' => (m', none)
  | .deleting _ n => (finalState (deleteArchive n) m, none)
  | .finalizing a n now => (finalState (finalizeAt n a now) m, none)
  | .completing k n now => match m.ended? k.number with
    | some r => ({ completeAt n k.job.account r now m with
        pending := m.pending.filter (· ≠ k) }, none)
    | none => (m, none)

/-- A part is accepted, or a deployment. -/
def isGranted (f : Flight) (m : SessionManager) : Bool :=
  match f with
  | .appending a n bytes => match appendFirst n a bytes m with
    | .ok none _ => true
    | _ => false
  | .finalizing a n now => match finalizeAt n a now m with
    | .ok _ _ => true
    | _ => false
  | _ => false

/-- An upload leaves the table without an end. -/
def throwsAway (f : Flight) (m : SessionManager) : Bool :=
  match f with
  | .preparing a _ => match prepare a m with
    | .ok _ _ => false
    | .error _ _ => true
  | .appending a n bytes => match appendFirst n a bytes m with
    | .ok (some _) _ => true
    | _ => false
  | _ => false

/-- A registration throws its upload away where the directory cannot be made. -/
@[simp] theorem throwsAway_preparing (a : Account) (n : Nat) (m : SessionManager) :
    (Flight.preparing a n).throwsAway m = match prepare a m with
      | .ok _ _ => false
      | .error _ _ => true := rfl

/-- A part throws its upload away where its first half gives a fault to tell. -/
@[simp] theorem throwsAway_appending (a : Account) (n : Nat) (bytes : List UInt8)
    (m : SessionManager) :
    (Flight.appending a n bytes).throwsAway m = match appendFirst n a bytes m with
      | .ok (some _) _ => true
      | _ => false := rfl

end Flight

/-- The manager with the operations that are under way. -/
structure Traffic where
  manager : SessionManager
  flights : Keyed Client Flight := []

/-- The event is no request, and notes no end. -/
def Event.isApart : Event → Bool
  | .close | .take | .finish _ | .crash _ | .metadata _ | .outage _ _ => true
  | _ => false

namespace Traffic

/-- What a client has under way. -/
def flight? (t : Traffic) (c : Client) : Option Flight := Keyed.find? c t.flights

/-- The operation is held back: it waits, and somebody deletes the archive of its upload. -/
def isLocked (t : Traffic) (f : Flight) : Bool :=
  f.waits && t.flights.any fun e => e.2.isDeleting && e.2.upload = f.upload

/-- A client has gone on with its operation. -/
def goOn (t : Traffic) (c : Client) (m : SessionManager) : Option Flight → Traffic
  | some f => ⟨m, Keyed.put c f t.flights⟩
  | none => ⟨m, Keyed.erase c t.flights⟩

/-- A caller begins an operation, if it is not refused at once. -/
def beginOperation (t : Traffic) (c : Client) : Operation → Traffic
  | .register a info requester id now => match enter a info requester id now t.manager with
    | .ok _ m => t.goOn c m (some (.preparing a t.manager.uploads.length))
    | .error _ _ => t
  | .append a bytes => match t.manager.find? a with
    | some n => t.goOn c t.manager (some (.appending a n bytes))
    | none => t
  | .finalize a now => match t.manager.find? a with
    | some n => t.goOn c t.manager (some (.finalizing a n now))
    | none => t

/-- Whoever waits for the end of a job looks the upload up in which it is to be noted. -/
def beginNote (t : Traffic) (k : Ticket) (now : Timestamp) : Traffic :=
  match t.manager.find? k.job.account with
  | some n => t.goOn (.watcher k.number) t.manager (some (.completing k n now))
  | none => { t with manager :=
      { t.manager with pending := t.manager.pending.filter (· ≠ k) } }

end Traffic

/-- What can happen. -/
inductive Act where
  /-- A caller begins an operation. -/
  | ask (caller : Nat) (op : Operation)
  /-- The end of a job becomes known to whoever waits for it. -/
  | notice (k : Ticket) (now : Timestamp)
  /-- A client goes on with its operation. -/
  | resume (c : Client)
  /-- Something happens that is no request. -/
  | elsewhere (e : Event)

/-- What an act does. Whoever has an operation under way begins no other. -/
def Act.step : Act → Traffic → Traffic
  | .ask i op, t => match t.flight? (.caller i) with
    | some _ => t
    | none => t.beginOperation (.caller i) op
  | .notice k now, t => match t.flight? (.watcher k.number) with
    | some _ => t
    | none =>
      if k ∈ t.manager.pending ∧ (t.manager.ended? k.number).isSome then t.beginNote k now else t
  | .resume c, t => match t.flight? c with
    | none => t
    | some f =>
      if t.isLocked f then t else t.goOn c (f.proceed t.manager).1 (f.proceed t.manager).2
  | .elsewhere e, t => if e.isApart then { t with manager := e.step t.manager } else t

namespace Traffic

/-- Nothing is under way. -/
def start (s : Settings) (files : FileTree) (md : Metadata) : Traffic :=
  ⟨.start s files md, []⟩

/-- What there is after some acts. -/
def after (t : Traffic) (acts : List Act) : Traffic := acts.foldl (fun t act => act.step t) t

/-- What there is after a run that goes on. -/
@[simp] theorem after_append (t : Traffic) (acts acts' : List Act) :
    t.after (acts ++ acts') = (t.after acts).after acts' := by
  rw [after, after, after, List.foldl_append]

/-- A client that has gone on leaves the manager that its operation gave. -/
@[simp] theorem manager_goOn (t : Traffic) (c : Client) (m : SessionManager)
    (next : Option Flight) : (t.goOn c m next).manager = m := by
  cases next <;> rfl

/-- After a client has gone on, it has left what is left of its operation, and everybody else has
what they had. -/
@[simp] theorem flight?_goOn (t : Traffic) (c c' : Client) (m : SessionManager)
    (next : Option Flight) :
    (t.goOn c m next).flight? c' = if c = c' then next else t.flight? c' := by
  cases next with
  | some f => exact Keyed.find?_put c c' f t.flights
  | none => exact Keyed.find?_erase c c' t.flights

end Traffic

/-! ## What the second half of an operation does -/

/-- No part of the upload is accepted any more, and no deployment of it. -/
def Upload.Shut (u : Upload) : Prop := u.status ≠ .registered ∧ u.status ≠ .uploading

/-- An upload that has ended is shut. -/
theorem Upload.shut_of_terminal {u : Upload} (h : u.status.isTerminal = true) : u.Shut := by
  refine ⟨?_, ?_⟩ <;> intro hs <;> rw [hs] at h <;> cases h

/-- All that the second half of an operation can do to the manager and to the upload that it works
on, with what is left of the operation. -/
inductive Flight.Course (m : SessionManager) (u : Upload) :
    Flight → SessionManager → Option Flight → Prop
  | prepared {a : Account} {n : Nat} {t : FileTree}
      (made : Files.createDirectories (m.settings.accountDirectory a) m.plant.files = .ok () t) :
      Course m u (.preparing a n) (withFiles t m) none
  | unprepared {a : Account} {n : Nat} {t : FileTree} {f : StorageFault}
      (made : Files.createDirectories (m.settings.accountDirectory a) m.plant.files =
        .error f t)
      (thrown : (Flight.preparing a n).throwsAway m = true) :
      Course m u (.preparing a n) (unlink a (withFiles t m)) none
  | deleted {a : Account} {n : Nat} :
      Course m u (.deleting a n)
        (withFiles (finalState (Files.remove u.archive) m.plant.files) m) none
  | partRefused {a : Account} {n : Nat} {bytes : List UInt8} (shut : u.Shut) :
      Course m u (.appending a n bytes) m none
  | accepted {a : Account} {n : Nat} {bytes : List UInt8} {w : Writer} {t : FileTree}
      (may : u.status.allows .uploading = true) (nonempty : bytes ≠ [])
      (written : u.write bytes m.plant.files = .ok w t) :
      Course m u (.appending a n bytes) (withFiles t (put n (u.receiving w) m)) none
  | discarded {a : Account} {n : Nat} {bytes : List UInt8} {t : FileTree}
      (may : u.status.allows .uploading = true)
      (left : t = m.plant.files ∨ ∃ f, u.write bytes m.plant.files = .error f t)
      (thrown : (Flight.appending a n bytes).throwsAway m = true) :
      Course m u (.appending a n bytes)
        (withFiles t (unlink u.account (put n u.thrownAway m))) (some (.deleting a n))
  | endRefused {a : Account} {n : Nat} {now : Timestamp} (shut : u.Shut) :
      Course m u (.finalizing a n now) m none
  | submitted {a : Account} {n : Nat} {now : Timestamp} {t : FileTree} {p : Pool} {number : Nat}
      (may : u.status.allows .verifying = true) (closed : u.close m.plant.files = .ok () t)
      (taken : Pool.submit u.job m.plant.pool = .ok number p) :
      Course m u (.finalizing a n now)
        { withPool p (withFiles t (put n u.waiting m)) with
          pending := m.pending ++ [⟨number, u.job⟩] } none
  | failed {a : Account} {n : Nat} {now : Timestamp} {t : FileTree} {p : Pool} {reason : String}
      (may : u.status.allows .verifying = true) (left : t = finalState u.close m.plant.files)
      (pool : m.plant.pool.Works p) (queue : p.queue = m.plant.pool.queue) :
      Course m u (.finalizing a n now)
        (unlink u.account (withFiles
          (finalState (m.records.save ((u.failedFor reason).record now)) t)
          (withPool p (put n (u.failedFor reason) m)))) none
  | completed {k : Ticket} {n : Nat} {now : Timestamp} {r : DeployResult}
      (ended : m.ended? k.number = some r) :
      Course m u (.completing k n now)
        { unlink k.job.account (withFiles
            (finalState (m.records.save ((u.endedWith r).record now)) m.plant.files)
            (put n (u.endedWith r) m)) with
          pending := m.pending.filter (· ≠ k) } none
  | unended {k : Ticket} {n : Nat} {now : Timestamp} (still : m.ended? k.number = none) :
      Course m u (.completing k n now) m none

namespace Flight

variable {m : SessionManager} {u : Upload} {f : Flight}

/-- An upload that accepts no parts is shut. -/
theorem shut_of_uploading (h : u.status.allows .uploading = false) : u.Shut := by
  refine ⟨?_, ?_⟩ <;> intro hs <;> rw [hs] at h <;> cases h

/-- An upload that cannot be ended is shut. -/
theorem shut_of_verifying (h : u.status.allows .verifying = false) : u.Shut := by
  refine ⟨?_, ?_⟩ <;> intro hs <;> rw [hs] at h <;> cases h

/-- The second half of an operation takes one of these courses. -/
theorem course (f : Flight) (h : m.uploads[f.upload]? = some u) :
    f.Course m u (f.proceed m).1 (f.proceed m).2 := by
  cases f with
  | preparing a n =>
    rw [proceed]
    cases hmade : Files.createDirectories (m.settings.accountDirectory a) m.plant.files with
    | ok _ t =>
      rw [finalState_of_ok (prepare_of_ok hmade)]
      exact .prepared hmade
    | error f t =>
      rw [finalState_of_error (prepare_of_error hmade)]
      exact .unprepared hmade (by rw [throwsAway_preparing, prepare_of_error hmade])
  | deleting a n =>
    rw [proceed, finalState_of_ok (deleteArchive_eq (n := n) h)]
    exact .deleted
  | appending a n bytes =>
    rw [proceed]
    rcases appendFirst_cases (n := n) h a bytes with ⟨hshut, f, hfirst, -⟩ |
      ⟨hmay, ⟨w, t, hsome, hwritten, hfirst, -⟩ | ⟨f, t, hleft, hfirst, -⟩⟩
    · rw [hfirst]
      exact .partRefused (shut_of_uploading hshut)
    · rw [hfirst]
      exact .accepted hmay hsome hwritten
    · rw [hfirst]
      exact .discarded hmay hleft (by rw [throwsAway_appending, hfirst])
  | finalizing a n now =>
    rw [proceed]
    rcases finalizeAt_cases (n := n) h a now with ⟨hshut, f, -, hall⟩ |
      ⟨hmay, ⟨t, p, number, hclosed, htaken, hall⟩ |
        ⟨f, reason, t, p, -, -, hleft, hpool, hq, hall⟩⟩
    · rw [finalState_of_error hall]
      exact .endRefused (shut_of_verifying hshut)
    · rw [finalState_of_ok hall]
      exact .submitted hmay hclosed htaken
    · rw [finalState_of_error hall]
      exact .failed hmay hleft hpool hq
  -- Without an end there is nothing to complete yet.
  | completing k n now =>
    rw [proceed]
    cases hend : m.ended? k.number with
    | none => exact .unended hend
    | some r =>
      have hu : update n (fun u => { u with status := (outcome r).1, error := (outcome r).2 }) m =
          put n (u.endedWith r) m := update_eq_put h _
      have hn : (put n (u.endedWith r) m).uploads[n]? = some (u.endedWith r) :=
        Linked.known_put_self (n := n) h _
      simp only [completeAt, hu, persist_eq hn]
      exact .completed hend

/-- What the second half of an operation does to the files: it makes the directory of its account,
deletes the archive of its upload, writes to it or closes it, and saves a record of the upload. -/
theorem Course.files {m' : SessionManager} {next : Option Flight}
    {R : FileTree → FileTree → Prop} (hc : f.Course m u m' next) (refl : ∀ t, R t t)
    (trans : ∀ {t t' t''}, R t t' → R t' t'' → R t t'')
    (hdirs : R m.plant.files (finalState
      (Files.createDirectories (m.settings.accountDirectory f.account)) m.plant.files))
    (hremove : R m.plant.files (finalState (Files.remove u.archive) m.plant.files))
    (hwrite : ∀ bytes, R m.plant.files (finalState (u.write bytes) m.plant.files))
    (hclose : R m.plant.files (finalState u.close m.plant.files))
    (hsave : ∀ (r : SessionRecord) (t : FileTree), r.account = u.account →
      R t (finalState (m.records.save r) t)) :
    R m.plant.files m'.plant.files := by
  -- Most steps do one thing to the files; failing does two, which is what transitivity is for.
  cases hc with
  | prepared made => exact finalState_of_ok made ▸ hdirs
  | unprepared made => exact finalState_of_error made ▸ hdirs
  | deleted => exact hremove
  | partRefused => exact refl _
  | endRefused => exact refl _
  | unended => exact refl _
  | accepted _ _ written => exact finalState_of_ok written ▸ hwrite _
  | discarded may left =>
    rcases left with rfl | ⟨fault, hw⟩
    · exact refl _
    · exact finalState_of_error hw ▸ hwrite _
  | submitted may closed => exact finalState_of_ok closed ▸ hclose
  | failed may left =>
    subst left
    exact trans hclose (hsave _ _ rfl)
  | completed => exact hsave _ _ rfl

/-- What is granted was asked for an upload that was not shut. -/
theorem open_of_isGranted (h : m.uploads[f.upload]? = some u) (hg : f.isGranted m = true) :
    ¬ u.Shut := by
  intro ⟨hreg, hup⟩
  cases f with
  | appending a n bytes =>
    -- A part that is granted has passed the check of the status.
    rcases appendFirst_cases (n := n) h a bytes with ⟨-, f, hfirst, -⟩ | ⟨hmay, -⟩
    · simp only [isGranted, hfirst] at hg
      cases hg
    · exact (Status.allows_uploading.1 hmay).elim hreg hup
  | finalizing a n now =>
    rcases finalizeAt_cases (n := n) h a now with ⟨-, f, -, hall⟩ | ⟨hmay, -⟩
    · simp only [isGranted, hall] at hg
      cases hg
    · exact (Status.allows_verifying.1 hmay).elim hreg hup
  | preparing => cases hg
  | deleting => cases hg
  | completing => cases hg

/-- The second half of an operation changes no upload but its own. -/
theorem proceed_uploads (f : Flight) (m : SessionManager) {k : Nat} (hk : k ≠ f.upload) :
    (f.proceed m).1.uploads[k]? = m.uploads[k]? := by
  have hput : ∀ {n : Nat} {v : Upload}, k ≠ n → (m.put n v).uploads[k]? = m.uploads[k]? :=
    fun hn => List.getElem?_set_ne (Ne.symm hn)
  cases hu : m.uploads[f.upload]? with
  | some u =>
    -- every course puts the upload in its own place only
    have hc := f.course hu
    generalize (f.proceed m).1 = m', (f.proceed m).2 = next at hc ⊢
    cases hc with
    | accepted => exact hput hk
    | discarded => exact hput hk
    | submitted => exact hput hk
    | failed => exact hput hk
    | completed => exact hput hk
    | _ => rfl
  | none =>
    -- there is no course without an upload: the operations are opened one by one
    cases f with
    | preparing a n =>
      simp only [proceed]
      cases hmade : Files.createDirectories (m.settings.accountDirectory a) m.plant.files with
      | ok _ t => rw [finalState_of_ok (prepare_of_ok hmade)]; rfl
      | error f t => rw [finalState_of_error (prepare_of_error hmade)]; rfl
    | appending a n bytes =>
      simp only [proceed, appendFirst, run_bind, upload_of_unknown (n := n) hu]
    | deleting a n =>
      replace hu : m.uploads[n]? = none := hu
      simp only [proceed, deleteArchive, finalState, run_bind, run_get, hu, run_pure]
    | finalizing a n now =>
      simp only [proceed, finalizeAt, finalState, run_bind, upload_of_unknown (n := n) hu]
    | completing k' n now =>
      replace hu : m.uploads[n]? = none := hu
      replace hk : n ≠ k := Ne.symm hk
      simp only [proceed]
      cases m.ended? k'.number with
      | none => rfl
      | some r =>
        have hnone : ∀ change, (update n change m).uploads[n]? = none := fun change => by
          simp [update, hu]
        have hother : ∀ change, (update n change m).uploads[k]? = m.uploads[k]? := fun change => by
          simp [update, hk]
        simp only [completeAt, persist, hnone]
        exact hother _

end Flight

/-! ## Both halves -/

/-- A client that has something under way goes on with it, unless it is held back. -/
theorem Act.step_resume {t : Traffic} {c : Client} {f : Flight} (h : t.flight? c = some f)
    (hl : t.isLocked f = false) :
    (Act.resume c).step t = t.goOn c (f.proceed t.manager).1 (f.proceed t.manager).2 := by
  simp only [Act.step, h, hl, Bool.false_eq_true, if_false]

/-- A client that is the only one to have something under way goes on with it. -/
@[simp] theorem Act.step_resume_only (m : SessionManager) (c : Client) (f : Flight) :
    (Act.resume c).step ⟨m, [(c, f)]⟩ =
      ⟨(f.proceed m).1, match (f.proceed m).2 with
        | some next => [(c, next)]
        | none => []⟩ := by
  have hf : (⟨m, [(c, f)]⟩ : Traffic).flight? c = some f := if_pos rfl
  have hl : (⟨m, [(c, f)]⟩ : Traffic).isLocked f = false := by
    cases f <;> simp [Traffic.isLocked, Flight.waits, Flight.isDeleting]
  rw [step_resume hf hl]
  cases (f.proceed m).2 with
  | some next => simp only [Traffic.goOn, Keyed.put, if_pos]
  | none => simp [Traffic.goOn, Keyed.erase]

/-- Nobody who has nothing under way can go on with it. -/
@[simp] theorem Act.step_resume_nobody (m : SessionManager) (c : Client) :
    (Act.resume c).step ⟨m, []⟩ = ⟨m, []⟩ := rfl

/-- An operation whose halves nobody comes between is the operation of the manager. -/
theorem uninterrupted (m : SessionManager) (i : Nat) :
    (∀ a info requester id now,
      (⟨m, []⟩ : Traffic).after [.ask i (.register a info requester id now),
        .resume (.caller i)] = ⟨(Event.register a info requester id now).step m, []⟩) ∧
    (∀ a bytes,
      (⟨m, []⟩ : Traffic).after [.ask i (.append a bytes), .resume (.caller i),
        .resume (.caller i)] = ⟨(Event.append a bytes).step m, []⟩) ∧
    (∀ a now,
      (⟨m, []⟩ : Traffic).after [.ask i (.finalize a now), .resume (.caller i)] =
        ⟨(Event.finalize a now).step m, []⟩) ∧
    ∀ k now,
      (⟨m, []⟩ : Traffic).after [.notice k now, .resume (.watcher k.number)] =
        ⟨(Event.record k now).step m, []⟩ := by
  have hask : ∀ op, (Act.ask i op).step ⟨m, []⟩ =
      (⟨m, []⟩ : Traffic).beginOperation (.caller i) op := fun _ => rfl
  refine ⟨fun a info requester id now => ?_, fun a bytes => ?_, fun a now => ?_, fun k now => ?_⟩
  · simp only [Traffic.after, List.foldl_cons, List.foldl_nil, hask, Traffic.beginOperation,
      Event.step, SessionManager.register, finalState_bind]
    rcases enter_cases m a info requester id now with ⟨f, -, h⟩ | ⟨-, -, -, -, h⟩
    · simp only [h, Act.step_resume_nobody]
    · simp only [h]
      refine (Act.step_resume_only _ _ _).trans ?_
      simp only [Flight.proceed, finalState]
      split <;> rfl
  · simp only [Traffic.after, List.foldl_cons, List.foldl_nil, hask, Traffic.beginOperation,
      Event.step, append, finalState_bind]
    cases hf : m.find? a with
    | none => simp only [handle_of_idle hf, Act.step_resume_nobody]
    | some n =>
      simp only [handle_of_find hf, appendTo_eq, finalState_bind]
      have hgoOn : (⟨m, []⟩ : Traffic).goOn (.caller i) m (some (.appending a n bytes)) =
          ⟨m, [(.caller i, .appending a n bytes)]⟩ := rfl
      rw [hgoOn, Act.step_resume_only]
      simp only [Flight.proceed]
      -- the second time the client goes on only if the archive is still to be deleted
      cases appendFirst n a bytes m with
      | error f m' => exact Act.step_resume_nobody m' _
      | ok fault m' =>
        cases fault with
        | none => exact Act.step_resume_nobody m' _
        | some f =>
          refine (Act.step_resume_only m' _ _).trans ?_
          simp only [Flight.proceed, finalState, run_bind]
          cases deleteArchive n m' <;> rfl
  · simp only [Traffic.after, List.foldl_cons, List.foldl_nil, hask, Traffic.beginOperation,
      Event.step, finalize, finalState_bind]
    cases hf : m.find? a with
    | none => simp only [handle_of_idle hf, Act.step_resume_nobody]
    | some n =>
      simp only [handle_of_find hf]
      exact Act.step_resume_only m _ _
  · have hnotice : (Act.notice k now).step ⟨m, []⟩ =
        if k ∈ m.pending ∧ (m.ended? k.number).isSome then
          (⟨m, []⟩ : Traffic).beginNote k now else ⟨m, []⟩ := rfl
    simp only [Traffic.after, List.foldl_cons, List.foldl_nil, hnotice, Event.step, noteEnd]
    by_cases hk : k ∈ m.pending
    · cases hend : m.ended? k.number with
      | none =>
        have hno : ¬ (k ∈ m.pending ∧ (none : Option DeployResult).isSome = true) := by simp
        rw [if_neg hno, if_pos hk]
        exact Act.step_resume_nobody m _
      | some r =>
        rw [if_pos ⟨hk, rfl⟩, if_pos hk]
        simp only [Traffic.beginNote, complete]
        cases hf : m.find? k.job.account with
        | none => exact Act.step_resume_nobody _ _
        | some n =>
          refine (Act.step_resume_only m _ _).trans ?_
          simp only [Flight.proceed, hend]
    · rw [if_neg fun h => hk h.1, Act.step_resume_nobody, if_neg hk]

end Deployment
