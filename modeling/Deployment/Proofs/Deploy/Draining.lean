import Deployment.Proofs.Deploy.Ledger

/-! # Pools that run dry

The workers of a pool are never stuck: as long as any job waits or is worked on, one of them can
go on. Once no other job is accepted, every move of a worker brings the end nearer, in whatever
order they come, and so the jobs that were accepted all run.

* **`Plant.Accounted`** — what is true of the jobs and the counters at any time.
* **`Plant.Rests`** — no worker can go on.
* **`Pool.workLeft`** — how many moves of workers are missing to that.
* **`pool_accounts_for_every_job`** — all that, of every run of a pool. -/

namespace Deployment

open Plant (Move Posting acceptedIn startedIn ranIn)

namespace Plant

/-- A worker moves. -/
def Move.isWorker : Move → Bool
  | .take => true
  | .finish _ => true
  | _ => false

/-- No worker can go on. -/
def Rests (p : Plant) : Prop := ∀ mv : Move, mv.isWorker = true → mv.postings p = []

/-- What is true of the jobs and the counters of a pool after a run, given what was posted. -/
structure Accounted (workers capacity : Nat) (h : List Posting) (p : Plant) : Prop where
  /-- Every job that was accepted waits, is worked on, or has ended. -/
  balance : p.pool.stats.submitted =
    p.pool.queue.length + p.pool.stats.inFlight + p.pool.stats.succeeded + p.pool.stats.failed
  room : p.pool.queue.length ≤ max capacity 1
  busy : p.pool.stats.inFlight ≤ max workers 1
  /-- A worker that is done with its job was counted when it took it. -/
  counted : ∀ number, (p.pool.runningJob? number).isSome → 0 < p.pool.stats.inFlight
  accepts : ∀ job, (∃ number p', p.submit job = .ok number p') ↔
    p.pool.isOpen = true ∧ p.pool.queue.length < max capacity 1
  exhausted : ∀ job, (∃ p', p.submit job = .error (.poolExhausted (max capacity 1)) p') ↔
    p.pool.isOpen = true ∧ p.pool.queue.length = max capacity 1
  rejected : p.pool.stats.rejected = h.countP Posting.isExhausted
  order : startedIn h <+: acceptedIn h
  known : ∀ x ∈ ranIn h, x.1 ∈ startedIn h
  /-- A job that was accepted has no result yet and was not run, or was run once and has the
  result of that. -/
  once : ∀ t ∈ acceptedIn h,
    (p.pool.state t.number = .pending ∧ ∀ x ∈ ranIn h, x.1.number ≠ t.number) ∨
    ∃ r, p.pool.state t.number = .finished r ∧
      (ranIn h).filter (fun x => x.1.number = t.number) = [(t, r)]

end Plant

namespace Ledger

variable {workers capacity : Nat} {h : List Posting} {p : Pool} {t : Ticket}

/-! ## The counters -/

/-- There is always a worker. -/
theorem alive (hl : Ledger workers capacity h p) : p.workers ≠ 0 := by
  rw [hl.workers]
  exact Nat.ne_of_gt (Nat.le_max_right workers 1)

/-- All jobs that ended are counted among those that succeeded or among those that failed. -/
theorem ended (hl : Ledger workers capacity h p) :
    (ranIn h).length = p.stats.succeeded + p.stats.failed := by
  rw [hl.succeeded, hl.failed, List.length_eq_countP_add_countP fun x => x.2.isOk]
  simp

/-- Every job that was accepted waits, is worked on, or has ended. -/
theorem balance (hl : Ledger workers capacity h p) :
    p.stats.submitted =
      p.queue.length + p.stats.inFlight + p.stats.succeeded + p.stats.failed := by
  have haccepted : p.stats.submitted = (acceptedIn h).length := by
    rw [← List.length_map, hl.numbers, List.length_range]
  have hstarted := hl.runs.length_eq
  rw [List.length_append, List.length_map, hl.ended] at hstarted
  rw [haccepted, hl.order, List.length_append, hstarted, hl.inFlight]
  omega

/-- A request is accepted if none were refused so far for good and there is room. -/
theorem submit_ok_iff {p : Plant} (hl : Ledger workers capacity h p.pool) (job : DeployJob) :
    (∃ number p', p.submit job = .ok number p') ↔
      p.pool.isOpen = true ∧ p.pool.queue.length < max capacity 1 := by
  rw [← hl.capacity]
  obtain ⟨hopen, -, hroom, hq⟩ | ⟨-, -, hfull, hq⟩ | ⟨hclosed, hq⟩ := p.pool.submit_cases job
  · simp [Plant.submit_of_ok hq, hopen, hroom]
  · simp [Plant.submit_of_error hq, Nat.not_lt_of_le hfull]
  · simp [Plant.submit_of_error hq, hclosed.resolve_right hl.alive]

/-- A request is refused because too many jobs wait if there is no room. -/
theorem submit_exhausted_iff {p : Plant} (hl : Ledger workers capacity h p.pool)
    (job : DeployJob) :
    (∃ p', p.submit job = .error (.poolExhausted (max capacity 1)) p') ↔
      p.pool.isOpen = true ∧ p.pool.queue.length = max capacity 1 := by
  rw [← hl.capacity]
  obtain ⟨-, -, hroom, hq⟩ | ⟨hopen, -, hfull, hq⟩ | ⟨hclosed, hq⟩ := p.pool.submit_cases job
  · simp [Plant.submit_of_ok hq, Nat.ne_of_lt hroom]
  · simp [Plant.submit_of_error hq, hopen, Nat.le_antisymm hl.room hfull]
  · simp [Plant.submit_of_error hq, hclosed.resolve_right hl.alive]

/-! ## The jobs -/

/-- The jobs that were run differ from those that are left, and from each other. -/
theorem apart (hl : Ledger workers capacity h p) :
    ((ranIn h).map fun x => x.1.number).Nodup ∧
      ∀ x ∈ ranIn h, ∀ t ∈ p.unfinished, x.1.number ≠ t.number := by
  have hd := hl.distinct
  rw [List.append_assoc, List.map_append, List.map_map, List.nodup_append] at hd
  exact ⟨hd.1, fun x hx t ht => hd.2.2 _ (List.mem_map.2 ⟨x, hx, rfl⟩) _
    (List.mem_map.2 ⟨t, ht, rfl⟩)⟩

/-- A job that waits or is worked on has no result yet. -/
theorem pending (hl : Ledger workers capacity h p) (ht : t ∈ p.unfinished) :
    p.state t.number = .pending ∧ ∀ x ∈ ranIn h, x.1.number ≠ t.number := by
  refine ⟨?_, fun x hx => hl.apart.2 x hx t ht⟩
  rw [Pool.state, if_pos (List.any_eq_true.2 ⟨t, ht, by simp⟩)]

/-- A job that was run has the result of that, and was not run again. -/
theorem finished (hl : Ledger workers capacity h p) {r : DeployResult} (ht : (t, r) ∈ ranIn h) :
    p.state t.number = .finished r ∧
      (ranIn h).filter (fun x => x.1.number = t.number) = [(t, r)] := by
  refine ⟨?_, filter_key_eq (fun x => x.1.number) hl.apart.1 ht⟩
  have hover : ¬ (p.unfinished.any fun t' => t'.number = t.number) = true := by
    intro hany
    obtain ⟨t', ht', hn⟩ := List.any_eq_true.1 hany
    exact hl.apart.2 _ ht t' ht' (by simpa [eq_comm] using hn)
  rw [Pool.state, if_neg hover, hl.results _ ht]

/-- A job that was accepted is left or was run. -/
theorem accepted_cases (hl : Ledger workers capacity h p) (ht : t ∈ acceptedIn h) :
    t ∈ p.unfinished ∨ ∃ r, (t, r) ∈ ranIn h := by
  rw [hl.order] at ht
  rcases List.mem_append.1 ht with ht | ht
  · rcases List.mem_append.1 (hl.runs.mem_iff.1 ht) with ht | ht
    · obtain ⟨⟨_, r⟩, hx, rfl⟩ := List.mem_map.1 ht
      exact .inr ⟨r, hx⟩
    · exact .inl (List.mem_append_left p.queue ht)
  · exact .inl (List.mem_append_right p.running ht)

end Ledger

/-- The jobs and the counters of a plant are as the books of its pool say. -/
theorem Ledger.accounted {workers capacity : Nat} {h : List Posting} {p : Plant}
    (hl : Ledger workers capacity h p.pool) : p.Accounted workers capacity h where
  balance := hl.balance
  room := hl.capacity ▸ hl.room
  busy := by rw [hl.inFlight, ← hl.workers]; exact hl.busy
  counted number hsome := by
    obtain ⟨job, hjob⟩ := Option.isSome_iff_exists.1 hsome
    rw [hl.inFlight]
    exact List.length_pos_of_mem (Pool.mem_running_of_runningJob? hjob)
  accepts := hl.submit_ok_iff
  exhausted := hl.submit_exhausted_iff
  rejected := hl.rejected
  order := ⟨p.pool.queue, hl.order.symm⟩
  known x hx := hl.runs.mem_iff.2 (List.mem_append_left _ (List.mem_map.2 ⟨x, hx, rfl⟩))
  once t ht := by
    rcases hl.accepted_cases ht with hleft | ⟨r, hran⟩
    · exact .inl (hl.pending hleft)
    · exact .inr ⟨r, hl.finished hran⟩

/-! ## The way to the end -/

namespace Pool

/-- How many moves of workers are missing to the end: a job that waits has to be taken and to be
run. -/
def workLeft (p : Pool) : Nat := 2 * p.queue.length + p.running.length

/-- A worker that takes a job leaves the jobs that did not end as they are, in order. -/
@[simp] theorem unfinished_take (p : Pool) : p.take.unfinished = p.unfinished := by
  rw [take]
  split
  next t rest hwaiting =>
    split
    · simp [unfinished, hwaiting]
    · rfl
  next => rfl

/-- As many workers are alive after one takes a job. -/
@[simp] theorem workers_take (p : Pool) : p.take.workers = p.workers := by
  rw [take]
  split
  · split <;> rfl
  · rfl

/-- Where a job is left, some worker has one after the next is taken. -/
theorem running_take {p : Pool} (halive : p.workers ≠ 0) (hleft : p.unfinished ≠ []) :
    p.take.running ≠ [] := by
  rw [take]
  split
  next t rest hwaiting =>
    split
    next => simp
    -- A worker is free unless another job runs already, and then there is one.
    next hbusy =>
      intro hidle
      rw [hasFreeWorker, hidle] at hbusy
      exact hbusy (by simpa using Nat.pos_of_ne_zero halive)
  next hnone =>
    rwa [unfinished, hnone, List.append_nil] at hleft

/-! Free workers take jobs as long as any waits. -/

/-- As many workers are alive however many of them take jobs. -/
@[simp] theorem workers_repeat_take (p : Pool) (n : Nat) :
    (Nat.repeat take n p).workers = p.workers := by
  induction n with
  | zero => rfl
  | succ n ih => rw [Nat.repeat, workers_take, ih]

/-- No job comes and none is lost when workers take jobs. -/
@[simp] theorem unfinished_repeat_take (p : Pool) (n : Nat) :
    (Nat.repeat take n p).unfinished = p.unfinished := by
  induction n with
  | zero => rfl
  | succ n ih => rw [Nat.repeat, unfinished_take, ih]

/-- As long as a worker is alive and a job is left, some worker has a job once all have taken. -/
theorem running_takeAll {p : Pool} (halive : p.workers ≠ 0) (hleft : p.unfinished ≠ []) :
    p.takeAll.running ≠ [] := by
  rw [takeAll]
  cases hqueue : p.queue with
  | nil => rwa [unfinished, hqueue, List.append_nil] at hleft
  | cons t rest =>
    rw [List.length_cons, Nat.repeat]
    exact running_take (p.workers_repeat_take _ ▸ halive) (p.unfinished_repeat_take _ ▸ hleft)

end Pool

namespace Ledger

variable {workers capacity : Nat} {h : List Posting} {p : Plant}

/-- As long as a job is left, a worker can go on. -/
theorem rests_iff (hl : Ledger workers capacity h p.pool) :
    p.Rests ↔ p.pool.unfinished = [] := by
  constructor
  · intro hrests
    apply Decidable.byContradiction
    intro hleft
    cases hrunning : p.pool.running with
    | nil =>
      -- Nobody works, so some worker is free for the first job that waits.
      have htake : (p.pool.take.running.drop p.pool.running.length).map Posting.started = [] :=
        hrests .take rfl
      rw [hrunning, List.length_nil, List.drop_zero, List.map_eq_nil_iff] at htake
      exact Pool.running_take hl.alive hleft htake
    | cons t rest =>
      -- Whoever works can be done with the job.
      have hjob : p.pool.runningJob? t.number = some t.job := by
        simp [Pool.runningJob?, hrunning]
      have hfinish := hrests (.finish t.number) rfl
      rw [Move.postings, hjob] at hfinish
      cases hfinish
  · intro hleft mv hmv
    obtain ⟨hrunning, hqueue⟩ := List.append_eq_nil_iff.1 hleft
    cases mv with
    | take => simp [Move.postings, Pool.take, hqueue, hrunning]
    | finish number => simp [Move.postings, Pool.runningJob?, hrunning]
    | _ => cases hmv

/-- The counters tell whether a worker can go on. -/
theorem rests_iff_stats (hl : Ledger workers capacity h p.pool) :
    p.Rests ↔ p.pool.queue = [] ∧ p.pool.stats.inFlight = 0 ∧
      p.pool.stats.submitted = p.pool.stats.succeeded + p.pool.stats.failed := by
  rw [hl.rests_iff, Pool.unfinished, List.append_eq_nil_iff, hl.inFlight, List.length_eq_zero_iff]
  constructor
  · rintro ⟨hrunning, hqueue⟩
    refine ⟨hqueue, hrunning, ?_⟩
    rw [hl.balance, hl.inFlight, hqueue, hrunning]
    simp
  · rintro ⟨hqueue, hrunning, -⟩
    exact ⟨hrunning, hqueue⟩

/-- Once no other job is accepted, every move of a worker brings the end nearer. -/
theorem turn_of_closed {p p' : Pool} (hl : Ledger workers capacity h p)
    {postings : List Posting} (ht : p.Turns p' postings) (hclosed : p.isOpen = false) :
    p'.isOpen = false ∧ acceptedIn postings = [] ∧
      p'.workLeft + postings.countP Posting.isWork = p.workLeft := by
  cases ht with
  | idle => exact ⟨hclosed, rfl, rfl⟩
  | accepted job isOpen => rw [hclosed] at isOpen; cases isOpen
  | exhausted isOpen => rw [hclosed] at isOpen; cases isOpen
  | shut => exact ⟨hclosed, rfl, rfl⟩
  -- A job counts twice while it waits and once while it runs; either turn posts one piece of work.
  | started t rest waiting =>
    refine ⟨hclosed, rfl, ?_⟩
    simp only [Pool.workLeft, waiting, List.length_cons, List.length_append, List.length_nil]
    simp [Posting.isWork]
    omega
  | ran t r running =>
    refine ⟨hclosed, rfl, ?_⟩
    have := (hl.running_perm running).length_eq
    simp [Pool.workLeft, Posting.isWork, this]
    omega
  | closed => exact ⟨rfl, rfl, rfl⟩

/-- Once no other job is accepted, the moves of workers that are missing to the end are those that
were missing without those that were made. -/
theorem after_of_closed (hl : Ledger workers capacity h p.pool) (hclosed : p.pool.isOpen = false)
    (mvs : List Move) :
    acceptedIn (p.journal mvs) = [] ∧
      (p.after mvs).pool.workLeft + (p.journal mvs).countP Posting.isWork = p.pool.workLeft := by
  induction mvs generalizing h p with
  | nil => exact ⟨rfl, rfl⟩
  | cons mv mvs ih =>
    obtain ⟨hclosed', hnone, hleft⟩ := hl.turn_of_closed (mv.turns p) hclosed
    obtain ⟨hrest, hleft'⟩ := ih (hl.turn (mv.turns p)) hclosed'
    rw [Plant.journal, Plant.acceptedIn_append, hnone, hrest, List.countP_append]
    exact ⟨rfl, by rw [Plant.after]; omega⟩

end Ledger

/-! ## Shutting down -/

namespace Plant

/-- The one plant becomes the other by moves of workers alone. -/
def WorksTo (p q : Plant) : Prop :=
  ∃ mvs : List Move, (∀ mv ∈ mvs, mv.isWorker = true) ∧ p.after mvs = q

/-- Nothing was done, and that is work of the workers alone. -/
theorem WorksTo.refl (p : Plant) : p.WorksTo p := ⟨[], nofun, rfl⟩

/-- Work that goes on after work is work. -/
theorem WorksTo.trans {p q r : Plant} : p.WorksTo q → q.WorksTo r → p.WorksTo r := by
  rintro ⟨mvs, hmvs, rfl⟩ ⟨mvs', hmvs', rfl⟩
  exact ⟨mvs ++ mvs', fun mv hmv => (List.mem_append.1 hmv).elim (hmvs mv) (hmvs' mv),
    p.after_append mvs mvs'⟩

/-- One move of a worker is work. -/
theorem WorksTo.move (p : Plant) (mv : Move) (h : mv.isWorker = true) :
    p.WorksTo (mv.step p) :=
  ⟨[mv], fun _ hmv => List.mem_singleton.1 hmv ▸ h, rfl⟩

/-- What is repeated of the moves of workers are such moves. -/
theorem WorksTo.repeat {f : Plant → Plant} (h : ∀ p : Plant, p.WorksTo (f p)) (n : Nat)
    (p : Plant) : p.WorksTo (Nat.repeat f n p) := by
  induction n with
  | zero => exact .refl p
  | succ n ih => exact ih.trans (h _)

/-- Taking jobs changes only the pool. -/
theorem pool_repeat_take (n : Nat) (p : Plant) :
    Nat.repeat Move.take.step n p = { p with pool := Nat.repeat Pool.take n p.pool } := by
  induction n with
  | zero => rfl
  | succ n ih => rw [Nat.repeat, ih, Move.step, Nat.repeat]

/-- Running the next job is work of the workers alone. -/
theorem worksTo_runNext (p : Plant) : p.WorksTo p.runNext := by
  have htake : p.WorksTo p.takeAll := by
    rw [takeAll, Pool.takeAll, ← pool_repeat_take]
    exact .repeat (fun p => .move p .take rfl) _ p
  refine htake.trans ?_
  rw [runNext]
  split
  next t _ _ => exact .move p.takeAll (.finish t.number) rfl
  next => exact .refl _

/-- A worker that is done with its job has one less left. -/
theorem length_unfinished_run {p : Plant} {t : Ticket} {rest : List Ticket}
    (h : p.pool.running = t :: rest) :
    (p.run t.number).pool.workers = p.pool.workers ∧
      (p.run t.number).pool.unfinished.length < p.pool.unfinished.length := by
  have hjob : p.pool.runningJob? t.number = some t.job := by simp [Pool.runningJob?, h]
  rw [pool_run hjob]
  refine ⟨rfl, ?_⟩
  have hshort : (p.pool.withoutJob t.number).length < p.pool.running.length :=
    List.length_filter_lt_length_iff_exists.2 ⟨t, h ▸ List.mem_cons_self .., by simp⟩
  rw [Pool.unfinished, Pool.unfinished, List.length_append, List.length_append]
  exact Nat.add_lt_add_right hshort _

/-- With a worker, running the next job leaves one less. -/
theorem length_unfinished_runNext {p : Plant} (halive : p.pool.workers ≠ 0) :
    p.runNext.pool.workers = p.pool.workers ∧
      p.runNext.pool.unfinished.length ≤ p.pool.unfinished.length - 1 := by
  have hworkers : p.takeAll.pool.workers = p.pool.workers := p.pool.workers_repeat_take _
  have hleft : p.takeAll.pool.unfinished = p.pool.unfinished := p.pool.unfinished_repeat_take _
  rw [runNext, ← hworkers, ← hleft]
  split
  next t rest hrunning =>
    obtain ⟨hsame, hless⟩ := length_unfinished_run hrunning
    exact ⟨hsame, Nat.le_sub_one_of_lt hless⟩
  next hidle =>
    refine ⟨rfl, ?_⟩
    have : p.pool.unfinished = [] :=
      Decidable.byContradiction fun hne => Pool.running_takeAll halive hne hidle
    rw [hleft, this]
    exact Nat.zero_le _

/-- Running all jobs leaves none. -/
theorem unfinished_runAll {p : Plant} (halive : p.pool.workers ≠ 0) :
    p.runAll.pool.unfinished = [] := by
  -- Each round takes at least one job off, so as many rounds as there are jobs take them all.
  have hrepeat : ∀ n, (Nat.repeat runNext n p).pool.workers = p.pool.workers ∧
      (Nat.repeat runNext n p).pool.unfinished.length ≤ p.pool.unfinished.length - n := by
    intro n
    induction n with
    | zero => exact ⟨rfl, Nat.le_refl _⟩
    | succ n ih =>
      obtain ⟨hworkers, hless⟩ := length_unfinished_runNext (ih.1 ▸ halive)
      exact ⟨hworkers.trans ih.1, Nat.le_trans hless (Nat.sub_le_sub_right ih.2 1)⟩
  have := (hrepeat p.pool.unfinished.length).2
  rw [Nat.sub_self] at this
  exact List.eq_nil_of_length_eq_zero (Nat.le_zero.1 this)

/-- Shutting down is closing the pool and then moves of workers alone, until none can go on. -/
theorem shutdown_run {workers capacity : Nat} {h : List Posting} {p : Plant}
    (hl : Ledger workers capacity h p.pool) :
    ∃ mvs : List Move, (∀ mv ∈ mvs, mv.isWorker = true) ∧
      p.shutdown = p.after (.close :: mvs) ∧ p.shutdown.Rests := by
  -- Running all jobs is nothing but taking and finishing, which no closed pool prevents.
  have hworks : (Move.close.step p).WorksTo p.shutdown := .repeat worksTo_runNext _ _
  obtain ⟨mvs, hmvs, hafter⟩ := hworks
  have hshut : p.shutdown = p.after (.close :: mvs) := hafter.symm
  refine ⟨mvs, hmvs, hshut, ?_⟩
  have hl' := hl.after (.close :: mvs)
  rw [← hshut] at hl'
  rw [hl'.rests_iff]
  exact unfinished_runAll (p := Move.close.step p) hl.alive

end Plant

/-- The pool loses, doubles and miscounts nothing. After any run of a new pool the jobs and the
counters are accounted for, and workers are idle only where all jobs ended. Once the pool is
closed, no job is accepted, and there is work left for just as many moves of workers as have to
bring the accepted jobs to their ends, in any order. Shutting down makes such moves until all
that were accepted have their results. -/
theorem pool_accounts_for_every_job (workers capacity : Nat) (t : FileTree) (md : Metadata)
    (mvs : List Move) :
    let start : Plant := ⟨t, md, .start workers capacity⟩
    let h := start.journal mvs
    let p := start.after mvs
    p.Accounted workers capacity h ∧
    (p.Rests ↔ p.pool.queue = [] ∧ p.pool.stats.inFlight = 0 ∧
      p.pool.stats.submitted = p.pool.stats.succeeded + p.pool.stats.failed) ∧
    (∀ mvs', acceptedIn ((Move.close.step p).journal mvs') = [] ∧
      ((Move.close.step p).after mvs').pool.workLeft +
        ((Move.close.step p).journal mvs').countP Posting.isWork = p.pool.workLeft) ∧
    (∃ mvs', (∀ mv ∈ mvs', mv.isWorker = true) ∧ p.shutdown = p.after (.close :: mvs')) ∧
    p.shutdown.pool.queue = [] ∧ p.shutdown.pool.stats.inFlight = 0 ∧
    p.shutdown.pool.stats.submitted =
      p.shutdown.pool.stats.succeeded + p.shutdown.pool.stats.failed ∧
    ∀ ticket ∈ acceptedIn h, ∃ r, p.shutdown.pool.state ticket.number = .finished r := by
  intro start h p
  have hl : Ledger workers capacity h p.pool := Plant.ledger workers capacity t md mvs
  obtain ⟨mvs', hmvs', hshut, hrests⟩ := Plant.shutdown_run hl
  have hl' := hl.after (.close :: mvs')
  rw [← hshut] at hl'
  obtain ⟨hqueue, hnone, hended⟩ := hl'.rests_iff_stats.1 hrests
  refine ⟨hl.accounted, hl.rests_iff_stats,
    fun mvs'' => (hl.turn .closed).after_of_closed rfl mvs'', ⟨mvs', hmvs', hshut⟩,
    hqueue, hnone, hended, fun ticket hticket => ?_⟩
  have haccepted : ticket ∈ acceptedIn (h ++ p.journal (.close :: mvs')) := by
    rw [Plant.acceptedIn_append]
    exact List.mem_append_left _ hticket
  rcases hl'.accepted_cases haccepted with hleft | ⟨r, hran⟩
  · -- No job is left once no worker can go on.
    rw [hl'.rests_iff.1 hrests] at hleft
    cases hleft
  · exact ⟨r, (hl'.finished hran).1⟩

end Deployment
