import Deployment.Proofs.Session.Effect

/-! # Uploads and their deployments

An upload and the job that deploys it are kept in different places, and only the account's name
ties them together when the job ends. They belong together all the same: an account whose upload
waits for its deployment has exactly one job, and no other account has any.

* **`Linked`** — what holds of the uploads, the pool and the history after every run.
* **`Linked.step`** — every event keeps it.
* **`job_of_each_verifying_upload`** — what follows for uploads and jobs. -/

namespace Deployment

open SessionManager

namespace Status

/-- Parts are accepted as long as the upload waits for its deployment to be asked for. -/
@[simp] theorem allows_uploading {s : Status} :
    s.allows .uploading = true ↔ s = .registered ∨ s = .uploading := by
  cases s <;> decide

/-- So is its end. -/
@[simp] theorem allows_verifying {s : Status} :
    s.allows .verifying = true ↔ s = .registered ∨ s = .uploading := by
  cases s <;> decide

/-- From a status that can change an upload has not ended. -/
theorem not_terminal_of_allows {s s' : Status} (h : s.allows s' = true) : s.isTerminal = false := by
  cases s with
  | deployed => cases s' <;> cases h
  | failed => cases s' <;> cases h
  | _ => rfl

end Status

/-- The open jobs of an account. -/
def jobsOf (a : Account) (h : List Note) : List (Option Nat × Ticket) :=
  (outstanding h).filter fun j => j.2.job.account = a

/-- A job that is accepted is open from then on. -/
theorem jobsOf_submitted (h : List Note) (o : Option Nat) (t : Ticket) (a : Account) :
    jobsOf a (h ++ [.submitted o t]) =
      if t.job.account = a then jobsOf a h ++ [(o, t)] else jobsOf a h := by
  have ho : outstanding (h ++ [.submitted o t]) = outstanding h ++ [(o, t)] := by
    rw [outstanding_append]
    rfl
  rw [jobsOf, ho, List.filter_append, ← jobsOf]
  by_cases ha : t.job.account = a
  · rw [List.filter_cons_of_pos (by simpa using ha), List.filter_nil, if_pos ha]
  · rw [List.filter_cons_of_neg (by simpa using ha), List.filter_nil, List.append_nil, if_neg ha]

/-- A job whose end is noted is open no more. -/
theorem jobsOf_recorded (h : List Note) (t : Ticket) (r : DeployResult) (a : Account) :
    jobsOf a (h ++ [.recorded t r]) = (jobsOf a h).filter fun j => j.2 ≠ t := by
  have ho : outstanding (h ++ [.recorded t r]) = (outstanding h).filter fun j => j.2 ≠ t := by
    rw [outstanding_append]
    rfl
  rw [jobsOf, ho, jobsOf, List.filter_filter, List.filter_filter]
  simp only [Bool.and_comm]

/-- What an account has: no upload, one that is not complete, or one that waits for its
deployment, which is the one open job of the account. -/
inductive Linked.OfAccount (h : List Note) (m : SessionManager) (a : Account) : Prop where
  | idle (nobody : m.find? a = none) (jobs : jobsOf a h = [])
  | open (n : Nat) (u : Upload) (current : m.InProgress a n u) (own : u.account = a)
      (status : u.status = .registered ∨ u.status = .uploading) (jobs : jobsOf a h = [])
  | waiting (n k : Nat) (u : Upload) (current : m.InProgress a n u) (own : u.account = a)
      (status : u.status = .verifying) (jobs : jobsOf a h = [(some n, ⟨k, u.job⟩)])

/-- What holds of the uploads, the pool and the history after every run. -/
structure Linked (h : List Note) (m : SessionManager) : Prop where
  accounts : ∀ a, Linked.OfAccount h m a
  pending : (outstanding h).map (·.2) = m.pending
  unfinished : m.plant.pool.unfinished.Sublist m.pending
  numbered : ∀ t ∈ m.pending, t.number < m.plant.pool.stats.submitted
  distinct : (m.pending.map (·.number)).Nodup

namespace Linked

variable {h h' : List Note} {m m' : SessionManager} {a b : Account} {n : Nat} {u : Upload}

/-- An account that no change concerns has what it had. -/
theorem OfAccount.frame (hb : OfAccount h m b) (hfind : m'.find? b = m.find? b)
    (hknown : ∀ n u, m.InProgress b n u → u.account = b → m'.uploads[n]? = some u)
    (hjobs : jobsOf b h' = jobsOf b h) : OfAccount h' m' b := by
  cases hb with
  | idle nobody jobs => exact .idle (hfind.trans nobody) (hjobs.trans jobs)
  | «open» n u current own status jobs =>
    exact .open n u ⟨hfind.trans current.find, hknown n u current own⟩ own status
      (hjobs.trans jobs)
  | waiting n k u current own status jobs =>
    exact .waiting n k u ⟨hfind.trans current.find, hknown n u current own⟩ own status
      (hjobs.trans jobs)

/-- The upload that an account has in progress is its own. -/
theorem own (hl : Linked h m) (hc : m.InProgress a n u) : u.account = a := by
  cases hl.accounts a with
  | idle nobody => exact absurd (nobody.symm.trans hc.find) nofun
  | «open» n' u' hc' own =>
    obtain ⟨rfl, rfl⟩ := hc.unique hc'
    exact own
  | waiting n' k u' hc' own =>
    obtain ⟨rfl, rfl⟩ := hc.unique hc'
    exact own

/-- What an account has in progress is an upload that there is. -/
theorem known (hl : Linked h m) (hf : m.find? a = some n) : ∃ u, m.InProgress a n u := by
  cases hl.accounts a with
  | idle nobody => exact absurd (nobody.symm.trans hf) nofun
  | «open» n' u hc =>
    cases hf.symm.trans hc.find
    exact ⟨u, hc⟩
  | waiting n' k u hc =>
    cases hf.symm.trans hc.find
    exact ⟨u, hc⟩

/-- An account with an upload that is not complete has no open job. -/
theorem jobsOf_of_open (hl : Linked h m) (hc : m.InProgress a n u)
    (hs : u.status = .registered ∨ u.status = .uploading) : jobsOf a h = [] := by
  cases hl.accounts a with
  | idle _ jobs => exact jobs
  | «open» n' u' hc' own status jobs => exact jobs
  | waiting n' k u' hc' own status =>
    obtain ⟨rfl, rfl⟩ := hc.unique hc'
    simp [status] at hs

/-- What the accounts keep and the pool goes on with holds together still. -/
theorem keep (hl : Linked h m) (ho : outstanding h' = outstanding h)
    (ha : ∀ a, OfAccount h' m' a) (hp : m'.pending = m.pending)
    (hw : m.plant.pool.Works m'.plant.pool) : Linked h' m' where
  accounts := ha
  pending := by rw [ho, hl.pending, hp]
  unfinished := by rw [hp]; exact hw.unfinished.trans hl.unfinished
  numbered := by rw [hp, hw.submitted]; exact hl.numbered
  distinct := by rw [hp]; exact hl.distinct

/-- The jobs of an account hang on the open jobs. -/
theorem jobsOf_congr (ho : outstanding h' = outstanding h) (a : Account) :
    jobsOf a h' = jobsOf a h := by
  rw [jobsOf, jobsOf, ho]

/-- An account that is taken out of the table finds nothing, and the others what they found. -/
@[simp] theorem find?_unlink (m : SessionManager) (a b : Account) :
    (unlink a m).find? b = if a = b then none else m.find? b :=
  Keyed.find?_erase a b m.live

/-- An account that begins an upload finds the new one, and the others what they found. -/
@[simp] theorem find?_begin (m : SessionManager) (a b : Account) (u : Upload) :
    (m.begin a u).find? b = if a = b then some m.uploads.length else m.find? b :=
  Keyed.find?_put a b m.uploads.length m.live

/-- An upload that becomes another leaves those of other accounts alone. -/
theorem known_put (hu : m.uploads[n]? = some u) {v v' : Upload} {k : Nat}
    (hv : m.uploads[k]? = some v) (hne : v.account ≠ u.account) :
    (m.put n v').uploads[k]? = some v := by
  have : n ≠ k := by
    rintro rfl
    rw [hu] at hv
    cases hv
    exact hne rfl
  simp only [SessionManager.put, List.getElem?_set_ne this, hv]

/-- The upload of a number is what it became. -/
theorem known_put_self (hu : m.uploads[n]? = some u) (v : Upload) :
    (m.put n v).uploads[n]? = some v := by
  obtain ⟨hl, -⟩ := List.getElem?_eq_some_iff.1 hu
  simp [SessionManager.put, hl]

/-- After an upload was thrown away or has ended its account has none. -/
theorem accounts_of_unlink (hl : Linked h m) (hc : m.InProgress a n u) {v : Upload}
    (hfind : m'.find? = (unlink a (m.put n v)).find?) (hup : m'.uploads = (m.put n v).uploads)
    (hjobs : jobsOf a h' = []) (hother : ∀ b, a ≠ b → jobsOf b h' = jobsOf b h) (b : Account) :
    OfAccount h' m' b := by
  have hb : m'.find? b = if a = b then none else m.find? b := by
    rw [hfind]
    exact find?_unlink (m.put n v) a b
  by_cases hab : a = b
  · subst hab
    exact .idle (by rw [hb, if_pos rfl]) hjobs
  · -- Another account keeps its upload, since `n` is an upload of `a`.
    refine (hl.accounts b).frame (by rw [hb, if_neg hab]) (fun k w hw hwb => ?_) (hother b hab)
    rw [hup]
    exact known_put hc.known hw.known (by rw [hl.own hc, hwb]; exact Ne.symm hab)

/-- After an upload became another its account has that, and the others have theirs. -/
theorem accounts_of_put (hl : Linked h m) (hc : m.InProgress a n u) {v : Upload}
    (hfind : m'.find? = m.find?) (hup : m'.uploads = (m.put n v).uploads)
    (hself : m'.InProgress a n v → OfAccount h' m' a)
    (hother : ∀ b, a ≠ b → jobsOf b h' = jobsOf b h) (b : Account) : OfAccount h' m' b := by
  by_cases hab : a = b
  · subst hab
    exact hself ⟨by rw [hfind, hc.find], by rw [hup, known_put_self hc.known]⟩
  · refine (hl.accounts b).frame (by rw [hfind]) (fun k w hw hwb => ?_) (hother b hab)
    rw [hup]
    exact known_put hc.known hw.known (by rw [hl.own hc, hwb]; exact Ne.symm hab)

/-- After a registration its account has the new upload or none, and the others have theirs. -/
theorem accounts_of_begin (hl : Linked h m) {v : Upload}
    (hfind : ∀ b, a ≠ b → m'.find? b = m.find? b) (hup : m'.uploads = m.uploads ++ [v])
    (hself : OfAccount h m' a) (b : Account) : OfAccount h m' b := by
  by_cases hab : a = b
  · subst hab
    exact hself
  · refine (hl.accounts b).frame (hfind b hab) (fun k w hw _ => ?_) rfl
    rw [hup]
    exact known_begin hw.known v

/-- Where uploads and jobs are as they were, the accounts have what they had. -/
theorem accounts_of_same (hl : Linked h m) (ho : outstanding h' = outstanding h)
    (hfind : m'.find? = m.find?) (hup : m'.uploads = m.uploads) (b : Account) :
    OfAccount h' m' b :=
  (hl.accounts b).frame (by rw [hfind]) (fun _ _ hw _ => by rw [hup, hw.known])
    (jobsOf_congr ho b)

/-- An account without an upload has no open job. -/
theorem jobsOf_of_idle (hl : Linked h m) (hi : m.find? a = none) : jobsOf a h = [] := by
  cases hl.accounts a with
  | idle _ jobs => exact jobs
  | «open» n u hc => exact absurd (hi.symm.trans hc.find) nofun
  | waiting n k u hc => exact absurd (hi.symm.trans hc.find) nofun

/-- A job whose end was not noted is the one job of its account, and the account's upload waits
for it. -/
theorem of_pending (hl : Linked h m) {t : Ticket} (ht : t ∈ m.pending) :
    ∃ n u, m.InProgress t.job.account n u ∧ u.status = .verifying ∧ t.job = u.job ∧
      jobsOf t.job.account h = [(some n, t)] := by
  obtain ⟨j, hj, rfl⟩ := List.mem_map.1 (hl.pending ▸ ht)
  have hmem : j ∈ jobsOf j.2.job.account h := List.mem_filter.2 ⟨hj, by simp⟩
  cases hl.accounts j.2.job.account with
  | idle _ jobs => rw [jobs] at hmem; cases hmem
  | «open» n u _ _ _ jobs => rw [jobs] at hmem; cases hmem
  | waiting n k u current own status jobs =>
    obtain rfl : j = (some n, ⟨k, u.job⟩) := by simpa [jobs] using hmem
    exact ⟨n, u, current, status, rfl, jobs⟩

/-- An account has one job at most whose end was not noted. -/
theorem pending_unique (hl : Linked h m) {t t' : Ticket} (ht : t ∈ m.pending)
    (ht' : t' ∈ m.pending) (ha : t.job.account = t'.job.account) : t = t' := by
  obtain ⟨_, _, -, -, -, hone⟩ := hl.of_pending ht
  obtain ⟨_, _, -, -, -, hone'⟩ := hl.of_pending ht'
  rw [ha, hone'] at hone
  exact (Prod.mk.inj (List.cons.inj hone).1).2.symm

/-- The end of a job is never noted nowhere: there is an upload that waits for it. -/
theorem not_nowhere (hl : Linked h m) {t : Ticket} (ht : t ∈ m.pending)
    (nobody : ∀ n u, ¬ m.InProgress t.job.account n u) : False := by
  obtain ⟨n, u, hc, -⟩ := hl.of_pending ht
  exact nobody n u hc

/-- The upload that asked for an open job waits for it. -/
theorem of_outstanding (hl : Linked h m) {o : Option Nat} {t : Ticket}
    (ho : (o, t) ∈ outstanding h) :
    t ∈ m.pending ∧ ∃ n u, o = some n ∧ m.InProgress t.job.account n u ∧ u.status = .verifying ∧
      t.job = u.job := by
  have hp : t ∈ m.pending := hl.pending ▸ List.mem_map.2 ⟨(o, t), ho, rfl⟩
  obtain ⟨n, u, hc, hs, hjob, hone⟩ := hl.of_pending hp
  have hmem : (o, t) ∈ jobsOf t.job.account h := List.mem_filter.2 ⟨ho, by simp⟩
  rw [hone] at hmem
  exact ⟨hp, n, u, (Prod.mk.inj (List.mem_singleton.1 hmem)).1, hc, hs, hjob⟩

/-- An account of which no deployment is waited for has no open job. -/
theorem jobsOf_of_quiet (hl : Linked h m) (hq : ∀ k ∈ m.pending, k.job.account ≠ a) :
    jobsOf a h = [] := by
  cases hl.accounts a with
  | idle nobody jobs => exact jobs
  | «open» n u current own status jobs => exact jobs
  | waiting n k u current own status jobs =>
    have hmem : (some n, (⟨k, u.job⟩ : Ticket)) ∈ jobsOf a h := by
      rw [jobs]
      exact List.mem_singleton_self _
    have hwaits := (hl.of_outstanding (List.mem_filter.1 hmem).1).1
    exact absurd own (hq _ hwaits)

/-- An account of which no deployment is waited for can lose its upload. -/
theorem unlink_quiet (hl : Linked h m) (hq : ∀ k ∈ m.pending, k.job.account ≠ a)
    (hfind : m'.find? = (unlink a m).find?) (hup : m'.uploads = m.uploads) (b : Account) :
    OfAccount h m' b := by
  have hb : m'.find? b = if a = b then none else m.find? b := by
    rw [hfind]
    exact find?_unlink m a b
  by_cases hab : a = b
  · subst hab
    exact .idle (by rw [hb, if_pos rfl]) (hl.jobsOf_of_quiet hq)
  · refine (hl.accounts b).frame (by rw [hb, if_neg hab]) (fun k w hw _ => ?_) rfl
    rw [hup]
    exact hw.known

/-- A job that has ended is over. -/
theorem settled_of_ended {number : Nat} {r : DeployResult} (he : m.ended? number = some r) :
    m.plant.pool.Settled number := by
  refine Pool.settled_of_state fun hp => ?_
  rw [ended?, hp] at he
  cases he

/-- No two jobs that did not end have one number. -/
theorem unfinished_distinct (hl : Linked h m) :
    (m.plant.pool.unfinished.map (·.number)).Nodup :=
  hl.distinct.sublist (hl.unfinished.map _)

/-- A worker that has a job is found by the number of the job. -/
theorem runningJob?_eq (hl : Linked h m) {t : Ticket} (ht : t ∈ m.plant.pool.running) :
    m.plant.pool.runningJob? t.number = some t.job := by
  have hd : (m.plant.pool.running.map (·.number)).Nodup :=
    hl.unfinished_distinct.sublist ((List.sublist_append_left _ _).map _)
  have hfind : m.plant.pool.running.find? (fun t' => t'.number = t.number) = some t := by
    generalize m.plant.pool.running = running at ht hd
    -- The search stops at the first job with the number, and no two running jobs share one.
    induction running with
    | nil => cases ht
    | cons t' rest ih =>
      rw [List.map_cons, List.nodup_cons] at hd
      rcases List.mem_cons.1 ht with rfl | ht
      · simp
      · have : t'.number ≠ t.number := fun he => hd.1 (he ▸ List.mem_map.2 ⟨t, ht, rfl⟩)
        simpa [this] using ih ht hd.2
  rw [Pool.runningJob?, hfind]
  rfl

/-- A worker that is done with its job leaves the result of the job behind. -/
theorem finish (hl : Linked h m) {t : Ticket} (ht : t ∈ m.plant.pool.running) :
    ∃ r md, t.job.run m.plant.files m.plant.metadata =
        (match r with
          | .ok d => .ok d md
          | .error f => .error f md) ∧
      ((Event.finish t.number).step m) = { m with plant :=
        { m.plant with metadata := md, pool := m.plant.pool.finish t.number r } } ∧
      ((Event.finish t.number).step m).ended? t.number = some r := by
  -- Once taken off the running jobs the number is that of no unfinished one, so it is read as
  -- finished.
  have hover : ∀ r, (m.plant.pool.finish t.number r).Settled t.number := by
    intro r t' ht'
    rcases List.mem_append.1 ht' with ht' | ht'
    · simpa using (List.mem_filter.1 ht').2
    · have hd := hl.unfinished_distinct
      rw [Pool.unfinished, List.map_append, List.nodup_append] at hd
      exact (hd.2.2 _ (List.mem_map.2 ⟨t, ht, rfl⟩) _ (List.mem_map.2 ⟨t', ht', rfl⟩)).symm
  have hstate : ∀ r, (m.plant.pool.finish t.number r).state t.number = .finished r := by
    intro r
    rw [Pool.state_of_settled (hover r)]
    simp [Pool.finish]
  simp only [Event.step, Plant.run, hl.runningJob?_eq ht]
  cases t.job.run m.plant.files m.plant.metadata with
  | ok d md => exact ⟨.ok d, md, rfl, rfl, by simp only [ended?, hstate]⟩
  | error f md => exact ⟨.error f, md, rfl, rfl, by simp only [ended?, hstate]⟩

/-- An upload that is complete waits for the job that the pool takes for it. -/
theorem submitted (hl : Linked h m) (hc : m.InProgress a n u)
    (hs : u.status = .registered ∨ u.status = .uploading) {t : FileTree} {p : Pool} {number : Nat}
    (taken : Pool.submit u.job m.plant.pool = .ok number p) :
    Linked (h ++ [.submitted (m.find? u.account) ⟨number, u.job⟩])
      { withPool p (withFiles t (m.put n u.waiting)) with
        pending := m.pending ++ [⟨number, u.job⟩] } := by
  have hown : u.account = a := hl.own hc
  obtain ⟨hnumber, hqueue, hrunning, -, hcount⟩ := Pool.submit_ok taken
  have hjobs := jobsOf_submitted h (some n) ⟨number, u.job⟩
  rw [hown, hc.find]
  refine ⟨hl.accounts_of_put hc rfl rfl (fun hc' => ?_) fun b hab => ?_, ?_, ?_, ?_, ?_⟩
  · refine .waiting n number _ hc' hown rfl ?_
    refine (hjobs a).trans ((if_pos hown).trans ?_)
    rw [hl.jobsOf_of_open hc hs]
    rfl
  · exact (hjobs b).trans (if_neg fun hb => hab (hown.symm.trans hb))
  · rw [outstanding_append, ← hl.pending]
    exact List.map_append
  · have hp : p.unfinished = m.plant.pool.unfinished ++ [⟨number, u.job⟩] := by
      simp [Pool.unfinished, hqueue, hrunning]
    show p.unfinished.Sublist (m.pending ++ [⟨number, u.job⟩])
    rw [hp]
    exact hl.unfinished.append (.refl _)
  · -- The number is the count of all jobs so far, so it is above those of all others.
    intro t' ht'
    show t'.number < p.stats.submitted
    rw [hcount, hnumber]
    rcases List.mem_append.1 ht' with ht' | ht'
    · exact Nat.lt_succ_of_lt (hl.numbered t' ht')
    · obtain rfl := List.mem_singleton.1 ht'
      exact hnumber ▸ Nat.lt_succ_self _
  · show ((m.pending ++ [(⟨number, u.job⟩ : Ticket)]).map Ticket.number).Nodup
    rw [List.map_append, List.nodup_append]
    refine ⟨hl.distinct, by simp, fun k hk k' hk' => ?_⟩
    obtain ⟨t', ht', rfl⟩ := List.mem_map.1 hk
    obtain rfl : k' = number := by simpa using hk'
    exact Nat.ne_of_lt (hnumber ▸ hl.numbered t' ht')

/-- When the end of its one job is noted an account has neither an upload nor a job. -/
theorem recorded (hl : Linked h m) {t : Ticket} {r : DeployResult} {files : FileTree}
    (pending : t ∈ m.pending) (ended : m.ended? t.number = some r)
    (hc : m.InProgress t.job.account n u) :
    Linked (h ++ [.recorded t r])
      { unlink t.job.account (withFiles files (m.put n (u.endedWith r))) with
        pending := m.pending.filter (· ≠ t) } := by
  obtain ⟨n', u', hc', -, -, hone⟩ := hl.of_pending pending
  have hjobs := jobsOf_recorded h t r
  refine ⟨hl.accounts_of_unlink hc rfl rfl ?_ fun b hb => ?_, ?_, ?_, fun t' ht' => ?_, ?_⟩
  · rw [hjobs, hone]
    simp
  · rw [hjobs, List.filter_eq_self]
    intro j hj
    have hown : j.2.job.account = b := by simpa using (List.mem_filter.1 hj).2
    simp only [ne_eq, decide_eq_true_eq]
    rintro rfl
    exact hb hown
  · rw [outstanding_append, ← hl.pending, List.filter_map]
    rfl
  · -- The job has ended, so the pool has it no more.
    have hself : m.plant.pool.unfinished.filter (fun t' => t' ≠ t) = m.plant.pool.unfinished := by
      rw [List.filter_eq_self]
      intro t' ht'
      simp only [ne_eq, decide_eq_true_eq]
      rintro rfl
      exact settled_of_ended ended t' ht' rfl
    have hsub := hl.unfinished.filter fun t' => decide (t' ≠ t)
    rwa [hself] at hsub
  · exact hl.numbered t' (List.mem_filter.1 ht').1
  · exact hl.distinct.sublist (List.filter_sublist.map _)

/-- Every event keeps uploads and jobs together. -/
theorem step {e : Event} {notes : List Note} (hl : Linked h m) (he : Effect m e m' notes) :
    Linked (h ++ notes) m' := by
  have hnil : outstanding (h ++ []) = outstanding h := by rw [List.append_nil]
  have hjobs := jobsOf_congr hnil
  cases he with
  | nothing => exact hl.keep hnil (hl.accounts_of_same hnil rfl rfl) rfl (.refl _)
  | worked pool => exact hl.keep hnil (hl.accounts_of_same hnil rfl rfl) rfl pool
  | files t => exact hl.keep hnil (hl.accounts_of_same hnil rfl rfl) rfl (.refl _)
  | outage saveDown loadDown =>
    exact hl.keep hnil (hl.accounts_of_same hnil rfl rfl) rfl (.refl _)
  -- No job changes hands here: the account gets a new upload, which is still open.
  | @registered a _ _ _ _ u t valid plain free idle new made =>
    refine hl.keep hnil (fun b => ?_) rfl (.refl _)
    rw [List.append_nil]
    refine hl.accounts_of_begin (a := a) (fun b hab => ?_) rfl ?_ b
    · exact (find?_begin m a b u).trans (if_neg hab)
    · refine .open m.uploads.length u ⟨?_, ?_⟩ (by rw [new]; rfl) (by rw [new]; exact .inl rfl)
        (hl.jobsOf_of_idle idle)
      · exact (find?_begin m a a u).trans (if_pos rfl)
      · exact List.getElem?_concat_length
  | @unprepared a _ _ _ _ u t _ valid plain free idle new made =>
    refine hl.keep hnil (fun b => ?_) rfl (.refl _)
    rw [List.append_nil]
    refine hl.accounts_of_begin (a := a) (fun b hab => ?_) rfl ?_ b
    · refine (find?_unlink (withFiles t (m.begin a u)) a b).trans ((if_neg hab).trans ?_)
      exact (find?_begin m a b u).trans (if_neg hab)
    · refine .idle ?_ (hl.jobsOf_of_idle idle)
      exact (find?_unlink (withFiles t (m.begin a u)) a a).trans (if_pos rfl)
  -- The upload stays the current one of its account and open, so its account still waits for no
  -- job.
  | @accepted a bytes n u w t current may some written =>
    have ho : outstanding (h ++ [Note.accepted n bytes]) = outstanding h := by
      rw [outstanding_append]; rfl
    have hj := hl.jobsOf_of_open current (Status.allows_uploading.1 may)
    refine hl.keep ho (hl.accounts_of_put current rfl rfl (fun hc => ?_)
      (fun b _ => jobsOf_congr ho b)) rfl (.refl _)
    have hown : u.account = a := hl.own current
    exact .open n _ hc hown (.inr rfl) ((jobsOf_congr ho a).trans hj)
  -- A failing operation takes the session away, and an open upload had no job anyway.
  | @discarded a bytes n u t current may left =>
    have hj := hl.jobsOf_of_open current (Status.allows_uploading.1 may)
    refine hl.keep hnil (hl.accounts_of_unlink current ?_ rfl ((hjobs a).trans hj)
      (fun b _ => hjobs b)) rfl (.refl _)
    rw [hl.own current]
    rfl
  | submitted current may closed taken =>
    exact hl.submitted current (Status.allows_verifying.1 may) taken
  | @failed a now n u t p reason current may left pool queue =>
    have hj := hl.jobsOf_of_open current (Status.allows_verifying.1 may)
    refine hl.keep hnil (hl.accounts_of_unlink current ?_ rfl ((hjobs a).trans hj)
      (fun b _ => hjobs b)) rfl pool
    rw [hl.own current]
    rfl
  | recorded pending ended current => exact hl.recorded pending ended current
  | recordedNowhere pending ended nobody => exact (hl.not_nowhere pending nobody).elim

/-- At the start there is neither an upload nor a job. -/
theorem start (s : Settings) (t : FileTree) (md : Metadata) :
    Linked [] (SessionManager.start s t md) where
  accounts _ := .idle rfl rfl
  pending := rfl
  unfinished := .refl _
  numbered _ ht := nomatch ht
  distinct := .nil

/-- After every run uploads and jobs belong together. -/
theorem after (s : Settings) (t : FileTree) (md : Metadata) (es : List Event) :
    Linked ((SessionManager.start s t md).journal es) ((SessionManager.start s t md).after es) := by
  have h := after_induct_all (fun h m e hl => hl.step (effect e m)) es (Linked.start s t md)
  rwa [List.nil_append] at h

/-- An account has as many open jobs as it has uploads that wait for their deployment. -/
theorem length_jobsOf (hl : Linked h m) (a : Account) :
    (jobsOf a h).length = if m.isVerifying a then 1 else 0 := by
  cases hl.accounts a with
  | idle nobody jobs => simp [jobs, isVerifying, nobody]
  | «open» n u current own status jobs =>
    rcases status with hs | hs <;> simp [jobs, isVerifying, current.find, current.known, hs]
  | waiting n k u current own status jobs =>
    simp [jobs, isVerifying, current.find, current.known, status]

/-- Nothing but the end of its own job takes an upload that waits for its deployment away, or
changes it. -/
theorem waits_on (hl : Linked h m) {e : Event} {notes : List Note} (he : Effect m e m' notes)
    (hc : m.InProgress a n u) (hs : u.status = .verifying) :
    m'.InProgress a n u ∨
      ∃ t r now, e = .record t now ∧ t.job.account = a ∧ Note.recorded t r ∈ notes := by
  -- An event of another account changes another upload.
  have hput : ∀ {b k v v'}, m.InProgress b k v → b ≠ a → (m.put k v').uploads[n]? = some u := by
    intro b k v v' hb hba
    refine known_put hb.known hc.known ?_
    rw [hl.own hb, hl.own hc]
    exact Ne.symm hba
  have hopen : ∀ {b k v}, m.InProgress b k v → v.status = .registered ∨ v.status = .uploading →
      b ≠ a := by
    rintro b k v hb hv rfl
    obtain ⟨rfl, rfl⟩ := hc.unique hb
    simp [hs] at hv
  have hidle : ∀ {b}, m.find? b = none → b ≠ a := by
    rintro b hb rfl
    exact absurd (hb.symm.trans hc.find) nofun
  cases he with
  | nothing => exact .inl hc
  | worked pool => exact .inl ⟨hc.find, hc.known⟩
  | files t => exact .inl ⟨hc.find, hc.known⟩
  | outage saveDown loadDown => exact .inl ⟨hc.find, hc.known⟩
  | @registered b _ _ _ _ v t valid plain free idle new made =>
    refine .inl ⟨?_, known_begin hc.known v⟩
    exact (find?_begin m b a v).trans ((if_neg (hidle idle)).trans hc.find)
  | @unprepared b _ _ _ _ v t _ valid plain free idle new made =>
    refine .inl ⟨?_, known_begin hc.known v⟩
    refine (find?_unlink (withFiles t (m.begin b v)) b a).trans ((if_neg (hidle idle)).trans ?_)
    exact (find?_begin m b a v).trans ((if_neg (hidle idle)).trans hc.find)
  | accepted current may some written =>
    exact .inl ⟨hc.find, hput current (hopen current (Status.allows_uploading.1 may))⟩
  | @discarded b _ k v t current may left =>
    have hba := hopen current (Status.allows_uploading.1 may)
    refine .inl ⟨?_, hput current hba⟩
    refine (find?_unlink (m.put k v.thrownAway) v.account a).trans ((if_neg ?_).trans hc.find)
    rwa [hl.own current]
  | submitted current may closed taken =>
    exact .inl ⟨hc.find, hput current (hopen current (Status.allows_verifying.1 may))⟩
  | @failed b _ k v t p reason current may left pool queue =>
    have hba := hopen current (Status.allows_verifying.1 may)
    refine .inl ⟨?_, hput current hba⟩
    refine (find?_unlink (m.put k (v.failedFor reason)) v.account a).trans
      ((if_neg ?_).trans hc.find)
    rwa [hl.own current]
  | @recorded t now k v r pending ended current =>
    by_cases hta : t.job.account = a
    · exact .inr ⟨t, r, now, rfl, hta, List.mem_singleton.2 rfl⟩
    · refine .inl ⟨?_, hput current hta⟩
      exact (find?_unlink (m.put k (v.endedWith r)) t.job.account a).trans
        ((if_neg hta).trans hc.find)
  | recordedNowhere pending ended nobody => exact (hl.not_nowhere pending nobody).elim

/-- The end of a job is noted in the upload that asked for it, which waits for just that. -/
theorem recorded_in_its_upload (hl : Linked h m) {t : Ticket} {r : DeployResult} {now : Timestamp}
    (hn : Note.recorded t r ∈ (Event.record t now).notes m) :
    ∃ n u, (some n, t) ∈ outstanding h ∧ m.InProgress t.job.account n u ∧
      u.status = .verifying ∧ u.status.allows (outcome r).1 = true ∧
      ((Event.record t now).step m).uploads[n]? = some (u.endedWith r) ∧
      ((Event.record t now).step m).find? t.job.account = none := by
  have he := effect (.record t now) m
  generalize (Event.record t now).notes m = notes at hn he
  generalize (Event.record t now).step m = m' at he
  cases he with
  | nothing => cases hn
  | worked pool => cases hn
  | @recorded _ _ n u r' pending ended current =>
    obtain ⟨-, rfl⟩ : t = t ∧ r = r' := by simpa using hn
    obtain ⟨n', u', hc', hs, -, hone⟩ := hl.of_pending pending
    -- The upload in progress is the one the ticket was noted for: an account has only one of each.
    obtain ⟨rfl, rfl⟩ := current.unique hc'
    have hmem : (some n, t) ∈ jobsOf t.job.account h := by rw [hone]; exact List.mem_singleton.2 rfl
    refine ⟨n, u, (List.mem_filter.1 hmem).1, current, hs, ?_, known_put_self current.known _, ?_⟩
    · rw [hs]
      cases r <;> rfl
    · exact (find?_unlink (m.put n (u.endedWith r)) t.job.account t.job.account).trans (if_pos rfl)
  | recordedNowhere pending ended nobody => exact (hl.not_nowhere pending nobody).elim

end Linked

/-- Uploads and jobs correspond after every run, whatever requests, workers and accidents there
were and in whatever order they came. -/
theorem job_of_each_verifying_upload (s : Settings) (t : FileTree) (md : Metadata)
    (es : List Event) :
    let m := (start s t md).after es
    let h := (start s t md).journal es
    -- An account has one open job if its upload waits for its deployment, and else none.
    (∀ a, (jobsOf a h).length = if m.isVerifying a then 1 else 0) ∧
    -- The job carries the data of that very upload.
    (∀ o k, (o, k) ∈ outstanding h → ∃ n u, o = some n ∧ m.InProgress k.job.account n u ∧
      u.status = .verifying ∧ k.job = ⟨u.account, u.archive, u.owner, u.requester⟩) ∧
    -- The manager waits for these jobs, and the pool holds no others.
    m.pending = (outstanding h).map (·.2) ∧
    m.plant.pool.unfinished.Sublist ((outstanding h).map (·.2)) ∧
    -- The end of a job finds the upload that asked for it, still waiting, and ends it.
    (∀ k r now, Note.recorded k r ∈ (Event.record k now).notes m →
      ∃ n u, (some n, k) ∈ outstanding h ∧ m.InProgress k.job.account n u ∧
        u.status = .verifying ∧ u.status.allows (outcome r).1 = true ∧
        ((Event.record k now).step m).uploads[n]? = some (u.endedWith r) ∧
        ((Event.record k now).step m).find? k.job.account = none) ∧
    -- Nothing else takes an upload away that waits for its deployment.
    (∀ (e : Event) a n u, m.InProgress a n u → u.status = .verifying →
      (e.step m).InProgress a n u ∨
        ∃ k r now, e = .record k now ∧ k.job.account = a ∧ Note.recorded k r ∈ e.notes m) := by
  intro m h
  have hl : Linked h m := Linked.after s t md es
  refine ⟨hl.length_jobsOf, fun o k hk => ?_, hl.pending.symm, ?_,
    fun k r now => hl.recorded_in_its_upload, fun e a n u hc hs => hl.waits_on (effect e m) hc hs⟩
  · exact (hl.of_outstanding hk).2
  · rw [hl.pending]
    exact hl.unfinished

end Deployment
