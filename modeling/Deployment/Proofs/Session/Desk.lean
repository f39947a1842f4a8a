import Deployment.Proofs.Session.Order
import Deployment.Proofs.Session.Refusal
import Mathlib.Logic.Function.Basic

/-! # Requests with their tokens

Every request is made with a token of its own. Here the tokens are kept beside the operations that
are under way: with which an upload was begun, and with which it was ended when its job was
accepted. They change nothing of what happens.

* **`Turn`** — a request of a caller, or whatever else can happen.
* **`Desk`** — the service with the tokens that it was shown; **`Turn.step`** — what happens to it.
* **`served_at_once`** — a request that nobody comes between is what the service does with it.
* **`SessionManager.Keeps`** — uploads go on asking for the deployments that they ask for.
* **`Turn.Course`** — all that can happen at the desk; **`Turn.course`** — it is nothing else. -/

namespace Deployment

open Stateful SessionManager

/-! ## Requests with their tokens -/

/-- What a request asks of the manager, if its token names somebody. -/
def Call.operation? (c : Call) : Option Operation :=
  if c.isAnonymous then none
  else match c with
    | .init token info id now => some (.register info.account info token.principal id now)
    | .chunk _ r bytes => some (.append r.account (bytes.getD []))
    | .deploy _ r now => some (.finalize r.account now)
    | .status _ _ => none

/-- The token that a request is made with. -/
def Call.token : Call → Token
  | .init token _ _ _ | .chunk token _ _ | .deploy token _ _ | .status token _ => token

/-- What can happen to the service. -/
inductive Turn where
  /-- A caller makes a request. -/
  | call (caller : Nat) (c : Call)
  /-- The end of a job becomes known to whoever waits for it. -/
  | notice (k : Ticket) (now : Timestamp)
  /-- A client goes on with its operation. -/
  | resume (c : Client)
  /-- Something happens that is no request. -/
  | elsewhere (e : Event)

/-- The act that a turn comes to: a request that is refused at the door comes to none. -/
def Turn.act? : Turn → Option Act
  | .call i c => c.operation?.map (.ask i)
  | .notice k now => some (.notice k now)
  | .resume c => some (.resume c)
  | .elsewhere e => some (.elsewhere e)

/-- The service with the tokens that it was shown. -/
structure Desk where
  traffic : Traffic
  /-- The token with which each client began its operation. -/
  signed : Client → Token := fun _ => ⟨""⟩
  /-- The tokens with which the uploads were begun. -/
  began : List Token := []
  /-- The uploads of the jobs that were accepted, with the tokens with which they were ended. -/
  ended : List (Nat × Token) := []

namespace Desk

/-- The manager behind the desk. -/
abbrev manager (d : Desk) : SessionManager := d.traffic.manager

/-- Every look at a dataset, the oldest first. -/
def lookups (d : Desk) : List Lookup := d.manager.plant.metadata.lookups

/-- The traffic has gone on, and no token was shown. -/
def moved (d : Desk) (t : Traffic) : Desk := { d with traffic := t }

/-- The uploads that have come since. -/
def newUploads (d : Desk) (t : Traffic) : List Upload :=
  t.manager.uploads.drop d.manager.uploads.length

/-- The jobs that were accepted since. -/
def newJobs (d : Desk) (t : Traffic) : List Ticket :=
  t.manager.plant.pool.queue.drop d.manager.plant.pool.queue.length

/-- A caller begins an operation with a token. -/
def begin (d : Desk) (i : Nat) (token : Token) (op : Operation) : Desk :=
  let t := (Act.ask i op).step d.traffic
  { d with
    traffic := t
    signed := Function.update d.signed (.caller i) token
    began := d.began ++ (d.newUploads t).map fun _ => token }

/-- A client goes on with the operation that it has under way. -/
def goOn (d : Desk) (c : Client) (f : Flight) : Desk :=
  let t := (Act.resume c).step d.traffic
  { d with traffic := t, ended := d.ended ++ (d.newJobs t).map fun _ => (f.upload, d.signed c) }

end Desk

/-- What happens, and which tokens are kept of it. Whoever has an operation under way begins no
other. -/
def Turn.step (turn : Turn) (d : Desk) : Desk :=
  match turn with
  | .call i c => match c.operation?, d.traffic.flight? (.caller i) with
    | some op, none => d.begin i c.token op
    | _, _ => d
  | .resume c => match d.traffic.flight? c with
    | some f => d.goOn c f
    | none => d
  | .notice k now => d.moved ((Act.notice k now).step d.traffic)
  | .elsewhere e => d.moved ((Act.elsewhere e).step d.traffic)

namespace Desk

/-- Nobody has shown a token. -/
def start (s : Settings) (files : FileTree) (md : Metadata) : Desk :=
  { traffic := .start s files md }

/-- The service after a run. -/
def after (d : Desk) (turns : List Turn) : Desk := turns.foldl (fun d turn => turn.step d) d

end Desk

/-- The tokens are kept beside what happens, and change nothing of it. -/
@[simp] theorem Turn.traffic_step (turn : Turn) (d : Desk) :
    (turn.step d).traffic = d.traffic.after turn.act?.toList := by
  cases turn with
  | notice k now => rfl
  | elsewhere e => rfl
  | resume c =>
    simp only [step, act?, Option.toList_some, Traffic.after, List.foldl_cons, List.foldl_nil]
    cases hf : d.traffic.flight? c with
    | some f => rfl
    | none => simp only [Act.step, hf]
  | call i c =>
    simp only [step, act?]
    cases c.operation? with
    | none => rfl
    | some op =>
      simp only [Option.map_some, Option.toList_some, Traffic.after, List.foldl_cons,
        List.foldl_nil]
      cases hf : d.traffic.flight? (.caller i) with
      | some f => simp only [Act.step, hf]
      | none => rfl

/-- What happens over a run at the desk is what its acts do, one after the other. -/
theorem Desk.traffic_after (d : Desk) (turns : List Turn) :
    (d.after turns).traffic = d.traffic.after (turns.flatMap fun turn => turn.act?.toList) := by
  induction turns generalizing d with
  | nil => rfl
  | cons turn turns ih =>
    rw [List.flatMap_cons, Traffic.after_append, ← turn.traffic_step]
    exact ih (turn.step d)

/-- A request that nobody comes between is what the service does with it. -/
theorem served_at_once {d : Desk} (hnobody : d.traffic.flights = []) (i : Nat) (c : Call) :
    (d.after [.call i c, .resume (.caller i), .resume (.caller i)]).traffic =
      ⟨finalState c.serve d.manager, []⟩ := by
  obtain ⟨⟨m, flights⟩, signed, began, ended⟩ := d
  obtain rfl : flights = [] := hnobody
  show _ = (⟨finalState c.serve m, []⟩ : Traffic)
  -- The turns do to the traffic what their acts do; a call that needs one step only leaves the last
  -- resumption idle.
  rw [Desk.traffic_after]
  simp only [List.flatMap_cons, List.flatMap_nil, Turn.act?, Call.operation?]
  cases hname : c.isAnonymous with
  | true =>
    rw [finalState_of_error (Call.refused_of_anonymous hname)]
    rfl
  | false =>
    have hserve : finalState c.serve m = finalState c.ask m :=
      finalState_congr (Call.serve_of_named hname)
    -- The reply is thrown away here, the state it leaves is not.
    have hdropped : ∀ {α : Type} (x : Request α),
        finalState (x >>= fun _ => pure ()) m = finalState x m := by
      intro α x
      rw [finalState_bind, finalState]
      cases x m <;> rfl
    rw [hserve]
    obtain ⟨hregister, happend, hfinalize, -⟩ := uninterrupted m i
    cases c with
    | init token info id now =>
      have hask : finalState (Call.init token info id now).ask m =
          (Event.register info.account info token.principal id now).step m := hdropped _
      refine (Traffic.after_append ⟨m, []⟩ [_, .resume (.caller i)] [.resume (.caller i)]).trans ?_
      rw [hregister, hask]
      rfl
    | chunk token r bytes => exact happend r.account (bytes.getD [])
    | deploy token r now =>
      have hask : finalState (Call.deploy token r now).ask m =
          (Event.finalize r.account now).step m := hdropped _
      refine (Traffic.after_append ⟨m, []⟩ [_, .resume (.caller i)] [.resume (.caller i)]).trans ?_
      rw [hfinalize, hask]
      rfl
    | status token r =>
      have hsame : finalState (Call.status token r).ask m = m := by
        simp only [finalState, Call.ask]
        cases m.status r.account <;> rfl
      rw [hsame]
      rfl

/-! ## What happens to uploads and jobs -/

namespace SessionManager

variable {m m' m'' : SessionManager} {n : Nat} {u v : Upload}

/-- The deployments that the uploads ask for. -/
def wanted (m : SessionManager) : List DeployJob := m.uploads.map Upload.job

/-- The upload of a number is there, and is shut. -/
def IsShut (m : SessionManager) (n : Nat) : Prop := ∃ u, m.uploads[n]? = some u ∧ u.Shut

/-- An upload that there is asks for its deployment. -/
theorem wanted_of_known (hu : m.uploads[n]? = some u) : m.wanted[n]? = some u.job := by
  rw [wanted, List.getElem?_map, hu]
  rfl

/-- A deployment that is asked for is asked for by an upload. -/
theorem known_of_wanted {job : DeployJob} (h : m.wanted[n]? = some job) :
    ∃ u, m.uploads[n]? = some u ∧ u.job = job :=
  Option.map_eq_some_iff.1 (List.getElem?_map ▸ h)

/-- An upload of an account is one that there is. -/
theorem HasUpload.lt {a : Account} (h : m.HasUpload a n) : n < m.wanted.length := by
  obtain ⟨u, hu, -⟩ := h
  exact (List.getElem?_eq_some_iff.1 (wanted_of_known hu)).1

/-- No upload comes, and each still asks for the same deployment; those that are shut stay so, and
no account finds another. -/
structure Keeps (m m' : SessionManager) : Prop where
  wanted : m'.wanted = m.wanted
  shut : ∀ n, m.IsShut n → m'.IsShut n
  live : ∀ a n, m'.find? a = some n → m.find? a = some n

namespace Keeps

/-- Where nothing is done, uploads are kept. -/
theorem refl (m : SessionManager) : m.Keeps m := ⟨rfl, fun _ h => h, fun _ _ h => h⟩

/-- An upload stays one of its account, which is named by the deployment that it asks for. -/
theorem hasUpload (h : m.Keeps m') {a : Account} (hfor : m.HasUpload a n) : m'.HasUpload a n := by
  obtain ⟨u, hu, rfl⟩ := hfor
  obtain ⟨v, hv, hjob⟩ := known_of_wanted (h.wanted ▸ wanted_of_known hu)
  exact ⟨v, hv, congrArg DeployJob.account hjob⟩

/-- Where nothing else is done to uploads, they are kept as well. -/
theorem congr (h : m.Keeps m') (hup : m''.uploads = m'.uploads) (hfind : m''.find? = m'.find?) :
    m.Keeps m'' where
  wanted := by rw [SessionManager.wanted, hup]; exact h.wanted
  shut n hn := by rw [IsShut, hup]; exact h.shut n hn
  live a n hn := h.live a n (hfind ▸ hn)

/-- An account that finds its upload no longer keeps it nevertheless. -/
theorem unlink (h : m.Keeps m') (a : Account) : m.Keeps (unlink a m') where
  wanted := h.wanted
  shut := h.shut
  live b n hn := by
    rw [Linked.find?_unlink] at hn
    split at hn
    · cases hn
    · exact h.live b n hn

/-- An upload becomes another that asks for the same deployment. -/
theorem put (hu : m.uploads[n]? = some u) (hjob : v.job = u.job) (hshut : u.Shut → v.Shut) :
    m.Keeps (m.put n v) where
  wanted := by
    obtain ⟨hn, hget⟩ := List.getElem?_eq_some_iff.1 (wanted_of_known hu)
    show (m.uploads.set n v).map Upload.job = m.wanted
    rw [List.map_set, hjob, ← hget]
    exact List.set_getElem_self hn
  -- Upload `n` stays shut if it was; any other is the same upload as before.
  shut k := by
    rintro ⟨w, hw, hs⟩
    by_cases hk : n = k
    · subst hk
      obtain rfl : u = w := Option.some.inj (hu.symm.trans hw)
      exact ⟨v, Linked.known_put_self hu v, hshut hs⟩
    · exact ⟨w, (List.getElem?_set_ne hk).trans hw, hs⟩
  live _ _ h := h

end Keeps

end SessionManager

namespace Flight.Course

variable {m m' : SessionManager} {u : Upload} {f : Flight} {next : Option Flight}

/-- An upload that receives parts is not shut. -/
theorem not_shut (h : u.status = .registered ∨ u.status = .uploading) : ¬ u.Shut :=
  fun hs => h.elim hs.1 hs.2

/-- An operation that goes on keeps the uploads with what they ask for. -/
theorem keeps (hc : f.Course m u m' next) (hu : m.uploads[f.upload]? = some u) : m.Keeps m' := by
  have hput : ∀ {v : Upload}, v.job = u.job → (u.Shut → v.Shut) → m.Keeps (m.put f.upload v) :=
    fun hjob hshut => .put hu hjob hshut
  cases hc with
  | @unprepared a => exact ((Keeps.refl m).unlink a).congr rfl rfl
  | @accepted a n bytes w t may =>
    have hopen : ¬ u.Shut := not_shut (Status.allows_uploading.1 may)
    exact (hput (v := u.receiving w) rfl fun hs => absurd hs hopen).congr rfl rfl
  -- Thrown away, an upload is as shut as it was: only its writer is taken from it.
  | discarded => exact ((hput (v := u.thrownAway) rfl id).unlink u.account).congr rfl rfl
  | submitted => exact (hput (v := u.waiting) rfl fun _ => ⟨nofun, nofun⟩).congr rfl rfl
  | @failed a n now t p reason =>
    have hfailed := hput (v := u.failedFor reason) rfl fun _ => ⟨nofun, nofun⟩
    exact (hfailed.unlink u.account).congr rfl rfl
  | @completed k n now r =>
    have hended : m.Keeps (m.put n (u.endedWith r)) := hput rfl fun _ => by
      cases r <;> exact ⟨nofun, nofun⟩
    exact (hended.unlink k.job.account).congr rfl rfl
  | _ => exact (Keeps.refl m).congr rfl rfl

/-- Workers go on with the jobs that there are, unless an upload that was not shut is ended, and its
job is accepted. -/
theorem pool (hc : f.Course m u m' next) (hu : m.uploads[f.upload]? = some u) :
    m.plant.pool.Works m'.plant.pool ∨
      ∃ a n now number, f = .finalizing a n now ∧ next = none ∧ ¬ m.IsShut n ∧ m'.IsShut n ∧
        Pool.submit u.job m.plant.pool = .ok number m'.plant.pool := by
  cases hc with
  | failed may left pool => exact .inl pool
  -- Only submitting adds to the queue, and it shuts an upload that was open.
  | @submitted a n now t p number may closed taken =>
    refine .inr ⟨a, n, now, number, rfl, rfl, ?_, ?_, taken⟩
    · rintro ⟨v, hv, hs⟩
      obtain rfl : u = v := Option.some.inj (hu.symm.trans hv)
      exact not_shut (Status.allows_verifying.1 may) hs
    · exact ⟨u.waiting, Linked.known_put_self (n := n) hu _, nofun, nofun⟩
  | _ => exact .inl (.refl _)

/-- No operation of the manager changes the metadata. -/
theorem metadata (hc : f.Course m u m' next) : m'.plant.metadata = m.plant.metadata := by
  cases hc <;> rfl

/-- All that can be left of an operation is to delete the archive of its upload. -/
theorem next_eq (hc : f.Course m u m' next) {g : Flight} (hg : next = some g) :
    g.isDeleting = true ∧ g.upload = f.upload := by
  cases hc with
  | discarded => cases hg; exact ⟨rfl, rfl⟩
  | _ => cases hg

end Flight.Course

/-- What is no request keeps the uploads, and workers go on with the jobs that there are. -/
theorem Event.keeps_of_isApart {e : Event} (he : e.isApart = true) (m : SessionManager) :
    m.Keeps (e.step m) ∧ m.plant.pool.Works (e.step m).plant.pool := by
  have heffect := effect e m
  obtain ⟨hfind, hup, -⟩ := heffect.apart he
  refine ⟨(Keeps.refl m).congr hup hfind, ?_⟩
  generalize e.step m = m', e.notes m = notes at heffect
  cases heffect with
  | worked pool => exact pool
  | nothing => exact .refl _
  | outage => exact .refl _
  | _ => cases he

/-! ## What happens at the desk -/

namespace Desk

variable {d : Desk} {t : Traffic} {i : Nat} {token : Token} {op : Operation} {c : Client}
  {f : Flight}

/-- A caller has shown a token. -/
def shown (d : Desk) (i : Nat) (token : Token) (t : Traffic) : Desk :=
  { d with traffic := t, signed := Function.update d.signed (.caller i) token }

/-- A caller has begun an upload. -/
def entered (d : Desk) (i : Nat) (token : Token) (t : Traffic) : Desk :=
  { d.shown i token t with began := d.began ++ [token] }

/-- A client has ended the upload of a number. -/
def closed (d : Desk) (c : Client) (n : Nat) (t : Traffic) : Desk :=
  { d with traffic := t, ended := d.ended ++ [(n, d.signed c)] }

/-- A request that enters no upload shows its token and keeps none. -/
theorem begin_of_same (h : (Act.ask i op).step d.traffic = t) (hm : t.manager = d.manager) :
    d.begin i token op = d.shown i token t := by
  simp only [begin, newUploads, h, hm, List.drop_length, List.map_nil, List.append_nil]
  rfl

/-- A request that enters an upload has its token kept with it. -/
theorem begin_of_new {a : Account} {u : Upload} (h : (Act.ask i op).step d.traffic = t)
    (hm : t.manager = SessionManager.begin a u d.manager) :
    d.begin i token op = d.entered i token t := by
  have hcame : d.newUploads t = [u] := by
    rw [newUploads, hm]
    exact List.drop_left
  simp only [begin, h, hcame]
  rfl

/-- A client that hands in no job has no token kept. -/
theorem goOn_of_works (h : (Act.resume c).step d.traffic = t)
    (hq : t.manager.plant.pool.queue.length ≤ d.manager.plant.pool.queue.length) :
    d.goOn c f = d.moved t := by
  simp only [goOn, moved, newJobs, h, List.drop_of_length_le hq, List.map_nil, List.append_nil]

/-- A client that hands in a job has the token kept with which it asked for that. -/
theorem goOn_of_submitted {job : DeployJob} {number : Nat}
    (h : (Act.resume c).step d.traffic = t)
    (taken : Pool.submit job d.manager.plant.pool = .ok number t.manager.plant.pool) :
    d.goOn c f = d.closed c f.upload t := by
  have hcame : d.newJobs t = [⟨number, job⟩] := by
    rw [newJobs, (Pool.submit_ok taken).2.1]
    exact List.drop_left
  simp only [goOn, h, hcame]
  rfl

end Desk

/-- All that can happen at the desk, where operations that are under way are for uploads that there
are. -/
inductive Turn.Course (d : Desk) : Turn → Desk → Prop
  | nothing (turn : Turn) : Course d turn d
  | refused {i : Nat} {c : Call} (free : d.traffic.flight? (.caller i) = none) :
      Course d (.call i c) (d.shown i c.token d.traffic)
  | registered {i : Nat} {token : Token} {info : ResourceInfo} {id : Ulid} {now : Timestamp}
      {u : Upload} (new : u = d.manager.newUpload info.account info token.principal id now) :
      Course d (.call i (.init token info id now))
        (d.entered i token (d.traffic.goOn (.caller i)
          (SessionManager.begin info.account u d.manager)
          (some (.preparing info.account d.manager.uploads.length))))
  | found {i : Nat} {c : Call} {a : Account} {f : Flight}
      (current : d.manager.find? a = some f.upload)
      (ends : ∀ b n now, f = .finalizing b n now →
        ∃ token r, c = .deploy token r now ∧ r.account = a) :
      Course d (.call i c) (d.shown i c.token (d.traffic.goOn (.caller i) d.manager (some f)))
  | noticed {k : Ticket} {now : Timestamp} {n : Nat}
      (current : d.manager.find? k.job.account = some n) :
      Course d (.notice k now)
        (d.moved (d.traffic.goOn (.watcher k.number) d.manager (some (.completing k n now))))
  | forgotten {k : Ticket} {now : Timestamp} :
      Course d (.notice k now) (d.moved { d.traffic with manager :=
        { d.manager with pending := d.manager.pending.filter (· ≠ k) } })
  | resumed {c : Client} {f : Flight} {m : SessionManager} {next : Option Flight}
      (underWay : d.traffic.flight? c = some f) (keeps : d.manager.Keeps m)
      (works : d.manager.plant.pool.Works m.plant.pool)
      (metadata : m.plant.metadata = d.manager.plant.metadata)
      (left : ∀ g, next = some g → g.isDeleting = true ∧ g.upload = f.upload) :
      Course d (.resume c) (d.moved (d.traffic.goOn c m next))
  | submitted {c : Client} {a : Account} {n : Nat} {now : Timestamp} {u : Upload} {number : Nat}
      {m : SessionManager} (underWay : d.traffic.flight? c = some (.finalizing a n now))
      (known : d.manager.uploads[n]? = some u) (keeps : d.manager.Keeps m)
      (taken : Pool.submit u.job d.manager.plant.pool = .ok number m.plant.pool)
      (metadata : m.plant.metadata = d.manager.plant.metadata)
      (opened : ¬ d.manager.IsShut n) (shut : m.IsShut n) :
      Course d (.resume c) (d.closed c n (d.traffic.goOn c m none))
  | apart {e : Event} (isApart : e.isApart = true) :
      Course d (.elsewhere e) (d.moved { d.traffic with manager := e.step d.manager })

namespace Turn

variable {d : Desk}

/-- What comes of a request for an operation, where the caller has nothing under way. -/
theorem course_begin {i : Nat} {c : Call} {op : Operation} (hop : c.operation? = some op)
    (hfree : d.traffic.flight? (.caller i) = none) :
    Course d (.call i c) (d.begin i c.token op) := by
  have hstep : (Act.ask i op).step d.traffic = d.traffic.beginOperation (.caller i) op := by
    simp only [Act.step, hfree]
  -- The two outcomes that several calls share: turned away at the desk, or led to a session.
  have hrefused : d.traffic.beginOperation (.caller i) op = d.traffic →
      Course d (.call i c) (d.begin i c.token op) := by
    intro h
    rw [Desk.begin_of_same (hstep.trans h) rfl]
    exact .refused hfree
  have hfound : ∀ {a f}, d.manager.find? a = some f.upload →
      (∀ b n now, f = .finalizing b n now →
        ∃ token r, c = .deploy token r now ∧ r.account = a) →
      d.traffic.beginOperation (.caller i) op = d.traffic.goOn (.caller i) d.manager (some f) →
      Course d (.call i c) (d.begin i c.token op) := by
    intro a f hcurrent hends h
    rw [Desk.begin_of_same (hstep.trans h) (Traffic.manager_goOn ..)]
    exact .found hcurrent hends
  simp only [Call.operation?] at hop
  split at hop
  · cases hop
  · cases c with
    | init token info id now =>
      cases hop
      rcases enter_cases d.manager info.account info token.principal id now with
        ⟨f, -, he⟩ | ⟨-, -, -, -, he⟩
      · exact hrefused (by simp only [Traffic.beginOperation, he])
      · have h := hstep
        simp only [Traffic.beginOperation, he] at h
        rw [Desk.begin_of_new h (Traffic.manager_goOn ..)]
        exact .registered rfl
    | chunk token r bytes =>
      cases hop
      cases hfind : d.manager.find? r.account with
      | none => exact hrefused (by simp only [Traffic.beginOperation, hfind])
      | some n =>
        refine hfound (f := .appending r.account n (bytes.getD [])) hfind ?_
          (by simp only [Traffic.beginOperation, hfind])
        rintro _ _ _ ⟨⟩
    | deploy token r now =>
      cases hop
      cases hfind : d.manager.find? r.account with
      | none => exact hrefused (by simp only [Traffic.beginOperation, hfind])
      | some n =>
        refine hfound (f := .finalizing r.account n now) hfind ?_
          (by simp only [Traffic.beginOperation, hfind])
        rintro _ _ _ ⟨⟩
        exact ⟨token, r, rfl, rfl⟩
    | status token r => cases hop

/-- A client that has an operation under way goes on with it, unless it is held back. -/
theorem course_goOn {c : Client} {f : Flight} {u : Upload} (hf : d.traffic.flight? c = some f)
    (hu : d.manager.uploads[f.upload]? = some u) : Course d (.resume c) (d.goOn c f) := by
  -- Held back, the operation does nothing yet; otherwise it goes one step on.
  cases hlocked : d.traffic.isLocked f with
  | true =>
    have hsame : (Act.resume c).step d.traffic = d.traffic := by
      simp only [Act.step, hf, hlocked, if_true]
    rw [Desk.goOn_of_works hsame (Nat.le_refl _)]
    exact .nothing _
  | false =>
    have hstep := Act.step_resume hf hlocked
    have hc := f.course hu
    generalize (f.proceed d.traffic.manager).1 = m, (f.proceed d.traffic.manager).2 = next
      at hstep hc
    have hkeeps := hc.keeps hu
    rcases hc.pool hu with hworks | ⟨a, n, now, number, rfl, rfl, hopened, hshut, taken⟩
    · rw [Desk.goOn_of_works hstep (by rw [Traffic.manager_goOn]; exact hworks.queue)]
      exact .resumed hf hkeeps hworks hc.metadata fun g hg => hc.next_eq hg
    · rw [Desk.goOn_of_submitted hstep (by rw [Traffic.manager_goOn]; exact taken)]
      exact .submitted hf hu hkeeps taken hc.metadata hopened hshut

/-- Whoever waits for the end of a job finds its upload, or forgets about it. -/
theorem course_notice (k : Ticket) (now : Timestamp) :
    Course d (.notice k now) (d.moved ((Act.notice k now).step d.traffic)) := by
  simp only [Act.step]
  split
  · exact .nothing _
  · split
    · simp only [Traffic.beginNote]
      split
      next n hcurrent => exact .noticed hcurrent
      next => exact .forgotten
    · exact .nothing _

/-- What happens at the desk is one of few things. -/
theorem course (turn : Turn)
    (known : ∀ c f, d.traffic.flight? c = some f → ∃ u, d.manager.uploads[f.upload]? = some u) :
    turn.Course d (turn.step d) := by
  cases turn with
  | call i c =>
    simp only [step]
    split
    next op hop hfree => exact course_begin hop hfree
    next => exact .nothing _
  | notice k now => exact course_notice k now
  | resume c =>
    simp only [step]
    cases hf : d.traffic.flight? c with
    | none => exact .nothing _
    | some f =>
      obtain ⟨u, hu⟩ := known c f hf
      exact course_goOn hf hu
  | elsewhere e =>
    simp only [step, Act.step]
    split
    next h => exact .apart h
    next => exact .nothing _

end Turn

end Deployment
