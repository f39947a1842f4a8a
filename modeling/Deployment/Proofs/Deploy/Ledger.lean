import Deployment.Data.Stateful
import Deployment.Deploy.Plant

/-! # The books of a plant

Requests for deployments, workers that take jobs, workers that are done with them and the end of
all that come in any order. What is posted along the way tells at any time which jobs wait, which
are worked on and what became of the others, and all counters can be read off it.

* **`Plant.Move`** — what can happen to a plant; **`Plant.Move.step`** — what it does.
* **`Plant.Posting`** — what is posted of a move; **`Plant.Move.postings`**.
* **`Plant.after`**, **`Plant.journal`** — the plant after a run, and all that was posted.
* **`Pool.Turns`** — what a move does to the pool.
* **`Ledger`** — what the postings say of the pool; **`Plant.ledger`** — they do after every run. -/

namespace Deployment

open Stateful

namespace Plant

/-- What can happen to a plant. -/
inductive Move where
  | submit (job : DeployJob)
  /-- A free worker takes the oldest job that waits. -/
  | take
  /-- A worker runs its job to the end. -/
  | finish (number : Nat)
  /-- No other job is accepted. -/
  | close
  /-- Somebody else changes the files and the metadata. -/
  | world (t : FileTree) (md : Metadata)

/-- What is posted of a move. -/
inductive Posting where
  | accepted (t : Ticket)
  | refused (f : DeployFault)
  | started (t : Ticket)
  /-- The job was run, with this result. -/
  | ran (t : Ticket) (r : DeployResult)

namespace Move

/-- What a move does. -/
def step : Move → Plant → Plant
  | .submit job, p => finalState (Plant.submit job) p
  | .take, p => { p with pool := p.pool.take }
  | .finish number, p => p.run number
  | .close, p => { p with pool := p.pool.close }
  | .world t md, p => { p with files := t, metadata := md }

/-- What is posted of a move. -/
def postings : Move → Plant → List Posting
  | .submit job, p => match Plant.submit job p with
    | .ok number _ => [.accepted ⟨number, job⟩]
    | .error f _ => [.refused f]
  | .take, p => (p.pool.take.running.drop p.pool.running.length).map .started
  | .finish number, p => match p.pool.runningJob? number with
    | some job => [.ran ⟨number, job⟩ (answer (job.run p.files) p.metadata)]
    | none => []
  | .close, _ => []
  | .world _ _, _ => []

end Move

/-- The plant after a run. -/
def after (p : Plant) : List Move → Plant
  | [] => p
  | mv :: mvs => (mv.step p).after mvs

/-- All that is posted of a run. -/
def journal (p : Plant) : List Move → List Posting
  | [] => []
  | mv :: mvs => mv.postings p ++ (mv.step p).journal mvs

/-- One run after the other. -/
@[simp] theorem after_append (p : Plant) (mvs mvs' : List Move) :
    p.after (mvs ++ mvs') = (p.after mvs).after mvs' := by
  induction mvs generalizing p with
  | nil => rfl
  | cons mv mvs ih => exact ih (mv.step p)

namespace Posting

/-- The job that was accepted. -/
@[simp] def accepted? : Posting → Option Ticket
  | .accepted t => some t
  | _ => none

/-- The job that a worker took. -/
@[simp] def started? : Posting → Option Ticket
  | .started t => some t
  | _ => none

/-- The job that was run, with its result. -/
@[simp] def ran? : Posting → Option (Ticket × DeployResult)
  | .ran t r => some (t, r)
  | _ => none

/-- The job was refused because too many wait. -/
def isExhausted : Posting → Bool
  | .refused (.poolExhausted _) => true
  | _ => false

/-- A worker took a job or was done with it. -/
def isWork : Posting → Bool
  | .started _ => true
  | .ran _ _ => true
  | _ => false

end Posting

/-- The jobs that were accepted, in order. -/
def acceptedIn (h : List Posting) : List Ticket := h.filterMap Posting.accepted?

/-- The jobs that workers took, in order. -/
def startedIn (h : List Posting) : List Ticket := h.filterMap Posting.started?

/-- The jobs that were run, in the order in which they ended, with their results. -/
def ranIn (h : List Posting) : List (Ticket × DeployResult) := h.filterMap Posting.ran?

/-- Jobs that were accepted in two ledgers, one after the other. -/
@[simp] theorem acceptedIn_append (h h' : List Posting) :
    acceptedIn (h ++ h') = acceptedIn h ++ acceptedIn h' := List.filterMap_append

/-- Jobs that were started in two ledgers, one after the other. -/
@[simp] theorem startedIn_append (h h' : List Posting) :
    startedIn (h ++ h') = startedIn h ++ startedIn h' := List.filterMap_append

/-- Jobs that were run in two ledgers, one after the other. -/
@[simp] theorem ranIn_append (h h' : List Posting) :
    ranIn (h ++ h') = ranIn h ++ ranIn h' := List.filterMap_append

/-- The job that one posting accepts, if it accepts one. -/
@[simp] theorem acceptedIn_singleton (x : Posting) : acceptedIn [x] = x.accepted?.toList := by
  cases x <;> rfl

/-- The job that one posting starts, if it starts one. -/
@[simp] theorem startedIn_singleton (x : Posting) : startedIn [x] = x.started?.toList := by
  cases x <;> rfl

/-- The job that one posting runs, if it runs one. -/
@[simp] theorem ranIn_singleton (x : Posting) : ranIn [x] = x.ran?.toList := by
  cases x <;> rfl

end Plant

/-! ## What a move does to the pool -/

open Plant (Move Posting acceptedIn startedIn ranIn)

namespace Pool

/-- What a move does to the pool, and what is posted of it. -/
inductive Turns (p : Pool) : Pool → List Posting → Prop where
  | idle : Turns p p []
  | accepted (job : DeployJob) (isOpen : p.isOpen = true) (alive : p.workers ≠ 0)
      (room : p.queue.length < p.capacity) :
      Turns p { p with
        queue := p.queue ++ [⟨p.stats.submitted, job⟩]
        stats := { p.stats with submitted := p.stats.submitted + 1 } }
        [.accepted ⟨p.stats.submitted, job⟩]
  | exhausted (isOpen : p.isOpen = true) (full : p.capacity ≤ p.queue.length) :
      Turns p { p with stats := { p.stats with rejected := p.stats.rejected + 1 } }
        [.refused (.poolExhausted p.capacity)]
  | shut (closed : p.isOpen = false ∨ p.workers = 0) : Turns p p [.refused .poolShutdown]
  | started (t : Ticket) (rest : List Ticket) (waiting : p.queue = t :: rest)
      (free : p.running.length < p.workers) :
      Turns p { p with
        queue := rest
        running := p.running ++ [t]
        stats := { p.stats with inFlight := p.stats.inFlight + 1 } }
        [.started t]
  | ran (t : Ticket) (r : DeployResult) (running : t ∈ p.running) :
      Turns p (p.finish t.number r) [.ran t r]
  | closed : Turns p p.close []

/-! What a worker leaves that is done with its job. -/

section Finish

variable (p : Pool) (number : Nat) (r : DeployResult)

/-- Nobody waits longer or shorter for a job that is finished. -/
@[simp] theorem queue_finish : (p.finish number r).queue = p.queue := rfl

/-- The job that is finished is no longer run, and the others are. -/
@[simp] theorem running_finish : (p.finish number r).running = p.withoutJob number := rfl

/-- One job less is in flight once one is finished. -/
@[simp] theorem inFlight_finish :
    (p.finish number r).stats.inFlight = p.stats.inFlight - 1 := by cases r <;> rfl

/-- A job that is finished was counted when it was submitted. -/
@[simp] theorem submitted_finish :
    (p.finish number r).stats.submitted = p.stats.submitted := by cases r <;> rfl

/-- A job that is finished was not rejected. -/
@[simp] theorem rejected_finish :
    (p.finish number r).stats.rejected = p.stats.rejected := by cases r <;> rfl

end Finish

/-- The job that a worker is found to have is one of those that are worked on. -/
theorem mem_running_of_runningJob? {p : Pool} {number : Nat} {job : DeployJob}
    (h : p.runningJob? number = some job) : (⟨number, job⟩ : Ticket) ∈ p.running := by
  obtain ⟨t, hfind, rfl⟩ := Option.map_eq_some_iff.1 h
  obtain rfl : t.number = number := by simpa using List.find?_some hfind
  exact List.mem_of_find?_eq_some hfind

/-- A request is accepted, refused because too many jobs wait, or refused for good. -/
theorem submit_cases (p : Pool) (job : DeployJob) :
    (p.isOpen = true ∧ p.workers ≠ 0 ∧ p.queue.length < p.capacity ∧
      submit job p = .ok p.stats.submitted { p with
        queue := p.queue ++ [⟨p.stats.submitted, job⟩]
        stats := { p.stats with submitted := p.stats.submitted + 1 } }) ∨
    (p.isOpen = true ∧ p.workers ≠ 0 ∧ p.capacity ≤ p.queue.length ∧
      submit job p = .error (.poolExhausted p.capacity)
        { p with stats := { p.stats with rejected := p.stats.rejected + 1 } }) ∨
    ((p.isOpen = false ∨ p.workers = 0) ∧ submit job p = .error .poolShutdown p) := by
  rw [submit]
  -- A closed pool, and one without workers, refuses before it looks at its room.
  by_cases hclosed : p.isOpen = false ∨ p.workers = 0
  · exact .inr (.inr ⟨hclosed, if_pos (by simpa using hclosed)⟩)
  · obtain ⟨hopen, halive⟩ := not_or.1 hclosed
    rw [if_neg (by simpa using hclosed)]
    by_cases hfull : p.capacity ≤ p.queue.length
    · exact .inr (.inl ⟨by simpa using hopen, halive, hfull, if_pos hfull⟩)
    · exact .inl ⟨by simpa using hopen, halive, Nat.lt_of_not_le hfull, if_neg hfull⟩

end Pool

namespace Plant

/-- A request reaches the pool alone. -/
theorem submit_of_ok {p : Plant} {job : DeployJob} {number : Nat} {q : Pool}
    (h : Pool.submit job p.pool = .ok number q) :
    Plant.submit job p = .ok number { p with pool := q } := by
  rw [submit, h]

/-- A job that the pool refuses changes the plant by what it changes of the pool. -/
theorem submit_of_error {p : Plant} {job : DeployJob} {f : DeployFault} {q : Pool}
    (h : Pool.submit job p.pool = .error f q) :
    Plant.submit job p = .error f { p with pool := q } := by
  rw [submit, h]

/-- A worker that runs its job leaves the result of the run with the pool. -/
theorem pool_run {p : Plant} {number : Nat} {job : DeployJob}
    (h : p.pool.runningJob? number = some job) :
    (p.run number).pool = p.pool.finish number (answer (job.run p.files) p.metadata) := by
  simp only [run, h, answer]
  cases job.run p.files p.metadata <;> rfl

/-- The metadata is what the run of the job leaves. -/
theorem metadata_run {p : Plant} {number : Nat} {job : DeployJob}
    (h : p.pool.runningJob? number = some job) :
    (p.run number).metadata = finalState (job.run p.files) p.metadata := by
  simp only [run, h, finalState]
  cases job.run p.files p.metadata <;> rfl

/-- Where no worker has a job of the number, nothing is run. -/
theorem run_of_nobody {p : Plant} {number : Nat} (h : p.pool.runningJob? number = none) :
    p.run number = p := by
  simp only [run, h]

/-- Every move is one of the turns of the pool. -/
theorem Move.turns (mv : Move) (p : Plant) : p.pool.Turns (mv.step p).pool (mv.postings p) := by
  cases mv with
  | submit job =>
    obtain ⟨hopen, halive, hroom, h⟩ | ⟨hopen, -, hfull, h⟩ | ⟨hclosed, h⟩ :=
      p.pool.submit_cases job
    · rw [step, finalState_of_ok (submit_of_ok h), postings, submit_of_ok h]
      exact .accepted job hopen halive hroom
    · rw [step, finalState_of_error (submit_of_error h), postings, submit_of_error h]
      exact .exhausted hopen hfull
    · rw [step, finalState_of_error (submit_of_error h), postings, submit_of_error h]
      exact .shut hclosed
  | take =>
    simp only [step, postings, Pool.take]
    split
    next t rest hwaiting =>
      -- A job is taken only if there is one and a worker is free for it.
      by_cases hfree : p.pool.hasFreeWorker = true
      · simp only [if_pos hfree, List.drop_left, List.map_cons, List.map_nil]
        exact .started t rest hwaiting (by simpa [Pool.hasFreeWorker] using hfree)
      · simp only [if_neg hfree, List.drop_length, List.map_nil]
        exact .idle
    next =>
      simp only [List.drop_length, List.map_nil]
      exact .idle
  | finish number =>
    cases hjob : p.pool.runningJob? number with
    | none =>
      simp only [step, postings, run_of_nobody hjob, hjob]
      exact .idle
    | some job =>
      simp only [step, postings, pool_run hjob, hjob]
      exact .ran ⟨number, job⟩ _ (Pool.mem_running_of_runningJob? hjob)
  | close => exact .closed
  | world t md => exact .idle

end Plant

/-! ## What the postings say of the pool -/

/-- Of entries with keys of their own the key of one picks just that. -/
theorem filter_key_eq {α : Type} (key : α → Nat) {l : List α} (hd : (l.map key).Nodup) {x : α}
    (hx : x ∈ l) : (l.filter fun y => key y = key x) = [x] := by
  induction l with
  | nil => cases hx
  | cons y rest ih =>
    rw [List.map_cons, List.nodup_cons] at hd
    rcases List.mem_cons.1 hx with rfl | hx
    · -- The one with the key stands here, so no other is found further on.
      have hnone : (rest.filter fun y => key y = key x) = [] := by
        refine List.filter_eq_nil_iff.2 fun y hy => ?_
        have : key y ≠ key x := fun he => hd.1 (he ▸ List.mem_map.2 ⟨y, hy, rfl⟩)
        simpa using this
      rw [List.filter_cons_of_pos (by simp), hnone]
    · have : key y ≠ key x := fun he => hd.1 (he ▸ List.mem_map.2 ⟨x, hx, rfl⟩)
      rw [List.filter_cons_of_neg (by simpa using this)]
      exact ih hd.2 hx

/-- What the postings of a run say of the pool that it leaves. -/
structure Ledger (workers capacity : Nat) (h : List Posting) (p : Pool) : Prop where
  workers : p.workers = max workers 1
  capacity : p.capacity = max capacity 1
  /-- Jobs are numbered in the order in which they were accepted. -/
  numbers : (acceptedIn h).map (·.number) = List.range p.stats.submitted
  /-- The jobs that wait are those that were accepted last. -/
  order : acceptedIn h = startedIn h ++ p.queue
  /-- A job that was started was run once, or is worked on. -/
  runs : (startedIn h).Perm ((ranIn h).map (·.1) ++ p.running)
  results : ∀ x ∈ ranIn h, Keyed.find? x.1.number p.results = some x.2
  room : p.queue.length ≤ p.capacity
  busy : p.running.length ≤ p.workers
  inFlight : p.stats.inFlight = p.running.length
  succeeded : p.stats.succeeded = (ranIn h).countP fun x => x.2.isOk
  failed : p.stats.failed = (ranIn h).countP fun x => !x.2.isOk
  rejected : p.stats.rejected = h.countP Posting.isExhausted

namespace Ledger

variable {workers capacity : Nat} {h : List Posting} {p : Pool} {t : Ticket}

/-- Before anything happens the books are empty. -/
theorem start (workers capacity : Nat) :
    Ledger workers capacity [] (.start workers capacity) where
  workers := rfl
  capacity := rfl
  numbers := rfl
  order := rfl
  runs := .refl _
  results _ hx := nomatch hx
  room := Nat.zero_le _
  busy := Nat.zero_le _
  inFlight := rfl
  succeeded := rfl
  failed := rfl
  rejected := rfl

/-- The jobs that were accepted have numbers of their own. -/
theorem accepted_distinct (hl : Ledger workers capacity h p) :
    ((acceptedIn h).map (·.number)).Nodup := hl.numbers ▸ List.nodup_range

/-- No two of the jobs that were run or are worked on or wait have one number. -/
theorem distinct (hl : Ledger workers capacity h p) :
    (((ranIn h).map (·.1) ++ p.running ++ p.queue).map (·.number)).Nodup := by
  -- The queue completes the jobs that were started to those that were accepted, and these differ.
  have hperm : (acceptedIn h).Perm ((ranIn h).map (·.1) ++ p.running ++ p.queue) := by
    rw [hl.order]
    exact hl.runs.append_right _
  exact (hperm.map _).nodup_iff.1 hl.accepted_distinct

/-- The jobs that are worked on have numbers of their own. -/
theorem running_distinct (hl : Ledger workers capacity h p) :
    (p.running.map (·.number)).Nodup := by
  have := hl.distinct
  rw [List.map_append, List.map_append] at this
  exact (List.nodup_append.1 (List.nodup_append.1 this).1).2.1

/-- A job that is worked on was not run before. -/
theorem ne_of_ran (hl : Ledger workers capacity h p) {x : Ticket × DeployResult}
    (hx : x ∈ ranIn h) (ht : t ∈ p.running) : t.number ≠ x.1.number := by
  have := hl.distinct
  rw [List.map_append, List.map_append] at this
  have hapart := (List.nodup_append.1 (List.nodup_append.1 this).1).2.2
  exact (hapart _ (List.mem_map.2 ⟨x.1, List.mem_map.2 ⟨x, hx, rfl⟩, rfl⟩) _
    (List.mem_map.2 ⟨t, ht, rfl⟩)).symm

/-- The job that a worker is done with is the only one that goes. -/
theorem running_perm (hl : Ledger workers capacity h p) (ht : t ∈ p.running) :
    p.running.Perm (t :: p.withoutJob t.number) := by
  -- The filter that keeps the other jobs drops exactly one.
  have hone := filter_key_eq (·.number) hl.running_distinct ht
  have hsplit := List.filter_append_perm (fun t' : Ticket => t'.number = t.number) p.running
  rw [hone] at hsplit
  simpa [Pool.withoutJob] using hsplit.symm

/-- A job that is accepted is the last of those that wait. -/
theorem accepted (hl : Ledger workers capacity h p) (job : DeployJob)
    (room : p.queue.length < p.capacity) :
    Ledger workers capacity (h ++ [.accepted ⟨p.stats.submitted, job⟩])
      { p with
        queue := p.queue ++ [⟨p.stats.submitted, job⟩]
        stats := { p.stats with submitted := p.stats.submitted + 1 } } where
  workers := hl.workers
  capacity := hl.capacity
  numbers := by simp [hl.numbers, List.range_succ]
  order := by simp [hl.order]
  runs := by simpa using hl.runs
  results := by simpa using hl.results
  room := by simpa using Nat.succ_le_of_lt room
  busy := hl.busy
  inFlight := hl.inFlight
  succeeded := by simpa using hl.succeeded
  failed := by simpa using hl.failed
  rejected := by simpa [Posting.isExhausted] using hl.rejected

/-- A job that is refused is counted if too many wait, and nothing else is. -/
theorem refused (hl : Ledger workers capacity h p) (f : DeployFault) {n : Nat}
    (hn : n = if Posting.isExhausted (.refused f) then 1 else 0) :
    Ledger workers capacity (h ++ [.refused f])
      { p with stats := { p.stats with rejected := p.stats.rejected + n } } where
  workers := hl.workers
  capacity := hl.capacity
  numbers := by simpa using hl.numbers
  order := by simpa using hl.order
  runs := by simpa using hl.runs
  results := by simpa using hl.results
  room := hl.room
  busy := hl.busy
  inFlight := hl.inFlight
  succeeded := by simpa using hl.succeeded
  failed := by simpa using hl.failed
  rejected := by
    rw [List.countP_append, List.countP_singleton, ← hl.rejected, hn]

/-- The job that a worker takes is the first of those that wait. -/
theorem started (hl : Ledger workers capacity h p) {rest : List Ticket}
    (waiting : p.queue = t :: rest) (free : p.running.length < p.workers) :
    Ledger workers capacity (h ++ [.started t])
      { p with
        queue := rest
        running := p.running ++ [t]
        stats := { p.stats with inFlight := p.stats.inFlight + 1 } } where
  workers := hl.workers
  capacity := hl.capacity
  numbers := by simpa using hl.numbers
  order := by simp [hl.order, waiting]
  -- The job leaves the queue for the running ones, and what was started grows by it.
  runs := by simpa using hl.runs.append_right [t]
  results := by simpa using hl.results
  room := by
    have := hl.room
    rw [waiting, List.length_cons] at this
    exact Nat.le_of_succ_le this
  busy := by simpa using Nat.succ_le_of_lt free
  inFlight := by simp [hl.inFlight]
  succeeded := by simpa using hl.succeeded
  failed := by simpa using hl.failed
  rejected := by simpa [Posting.isExhausted] using hl.rejected

/-- A worker that is done with its job leaves its result behind. -/
theorem ran (hl : Ledger workers capacity h p) (running : t ∈ p.running) (r : DeployResult) :
    Ledger workers capacity (h ++ [.ran t r]) (p.finish t.number r) := by
  have hperm := hl.running_perm running
  have hlen : p.running.length = (p.withoutJob t.number).length + 1 := hperm.length_eq
  refine
    { workers := hl.workers, capacity := hl.capacity, numbers := ?numbers, order := ?order
      runs := ?runs, results := ?results, room := hl.room, busy := ?busy, inFlight := ?inFlight
      succeeded := ?succeeded, failed := ?failed, rejected := ?rejected }
  case numbers => simpa using hl.numbers
  case order => simpa using hl.order
  case runs =>
    have : (startedIn h).Perm ((ranIn h).map (·.1) ++ (t :: p.withoutJob t.number)) :=
      hl.runs.trans (hperm.append_left _)
    simpa using this
  case results =>
    intro x hx
    rw [Pool.finish, Keyed.find?_put]
    rcases List.mem_append.1 (Plant.ranIn_append h [.ran t r] ▸ hx) with hx | hx
    · -- An earlier result is not overwritten: its job had another number.
      rw [if_neg (hl.ne_of_ran hx running), hl.results x hx]
    · obtain rfl : x = (t, r) := by simpa using hx
      exact if_pos rfl
  case busy => exact Nat.le_trans (Nat.le_of_succ_le (hlen ▸ Nat.le_refl _)) hl.busy
  case inFlight => simp [hl.inFlight, hlen]
  case succeeded =>
    cases r <;> simp [Pool.finish, Pool.ended, hl.succeeded, Except.isOk, Except.toBool]
  case failed =>
    cases r <;> simp [Pool.finish, Pool.ended, hl.failed, Except.isOk, Except.toBool]
  case rejected => simpa [Posting.isExhausted] using hl.rejected

/-- Every turn of the pool keeps the books right. -/
theorem turn (hl : Ledger workers capacity h p) {p' : Pool} {postings : List Posting}
    (ht : p.Turns p' postings) : Ledger workers capacity (h ++ postings) p' := by
  cases ht with
  | idle => rwa [List.append_nil]
  | accepted job _ _ room => exact hl.accepted job room
  | exhausted _ _ => exact hl.refused (.poolExhausted p.capacity) rfl
  | shut _ => exact hl.refused .poolShutdown rfl
  | started t rest waiting free => exact hl.started waiting free
  | ran t r running => exact hl.ran running r
  | closed =>
    rw [List.append_nil]
    exact { hl with }

/-- Every run keeps the books right. -/
theorem after {p : Plant} (hl : Ledger workers capacity h p.pool) (mvs : List Move) :
    Ledger workers capacity (h ++ p.journal mvs) (p.after mvs).pool := by
  induction mvs generalizing h p with
  | nil => rwa [Plant.journal, List.append_nil]
  | cons mv mvs ih =>
    rw [Plant.journal, ← List.append_assoc]
    exact ih (hl.turn (mv.turns p))

end Ledger

/-- The books are right after every run of a new pool. -/
theorem Plant.ledger (workers capacity : Nat) (t : FileTree) (md : Metadata) (mvs : List Move) :
    let p : Plant := ⟨t, md, .start workers capacity⟩
    Ledger workers capacity (p.journal mvs) (p.after mvs).pool :=
  Ledger.after (p := ⟨t, md, .start workers capacity⟩) (.start workers capacity) mvs

end Deployment
