import Deployment.Deploy.Job

/-! # The pool of workers

Deployments that were accepted wait in a queue until a worker is free. The queue is bounded, and
the oldest job is taken first.

* **`Pool`** — the queue, the jobs that are worked on, and what became of the others.
* **`Pool.canStart`** — whether there can be a pool of a size at all.
* **`Pool.submit`** — ask for a deployment.
* **`Pool.take`**, **`Pool.finish`** — a worker takes a job and is done with it.
* **`Pool.crash`** — a worker dies over a job.
* **`Pool.close`** — accept nothing more. -/

namespace Deployment

/-- How many jobs the pool has seen. -/
structure PoolStats where
  /-- Jobs that were accepted. -/
  submitted : Nat := 0
  succeeded : Nat := 0
  failed : Nat := 0
  /-- Jobs that were taken and did not end. -/
  inFlight : Nat := 0
  /-- Jobs that were refused because the queue was full. -/
  rejected : Nat := 0
  deriving DecidableEq, Repr

/-- A job that was accepted. Jobs are numbered from zero in the order in which they come. -/
structure Ticket where
  number : Nat
  job : DeployJob
  deriving DecidableEq, Repr

/-- What became of a job. -/
inductive JobState where
  | pending
  | finished (result : DeployResult)
  /-- The job was lost with its worker. -/
  | lost

/-- The pool of workers. -/
structure Pool where
  /-- The workers that are alive. -/
  workers : Nat
  /-- How many jobs may wait. -/
  capacity : Nat
  /-- Jobs are accepted. -/
  isOpen : Bool := true
  queue : List Ticket := []
  running : List Ticket := []
  results : Keyed Nat DeployResult := []
  stats : PoolStats := {}

namespace Pool

/-- The most jobs that a queue can have room for. -/
def maxCapacity : Nat := Nat.pow 2 61 - 1

/-- The most workers that can be listed. -/
def maxWorkers : Nat := Nat.pow 2 60 - 1

/-- There can be a pool of so many workers with room for so many jobs. A program that starts any
other dies of it; that it may run out of memory before is left out. -/
def canStart (workers capacity : Nat) : Bool :=
  workers ≤ maxWorkers && capacity ≤ maxCapacity

/-- A pool with at least one worker and room for at least one job. It comes to be only where it can
be started. -/
def start (workers capacity : Nat) : Pool :=
  { workers := max workers 1, capacity := max capacity 1 }

/-- Ask for a deployment; the answer is the number of the job. -/
def submit (job : DeployJob) : EStateM DeployFault Pool Nat := fun p =>
  let number := p.stats.submitted
  if !p.isOpen || p.workers = 0 then .error .poolShutdown p
  else if p.capacity ≤ p.queue.length then
    .error (.poolExhausted p.capacity)
      { p with stats := { p.stats with rejected := p.stats.rejected + 1 } }
  else .ok number
    { p with
      queue := p.queue ++ [⟨number, job⟩]
      stats := { p.stats with submitted := number + 1 } }

/-- A worker is free. -/
def hasFreeWorker (p : Pool) : Bool := p.running.length < p.workers

/-- A free worker takes the oldest job that waits. -/
def take (p : Pool) : Pool :=
  match p.queue with
  | t :: rest =>
    if p.hasFreeWorker then
      { p with
        queue := rest
        running := p.running ++ [t]
        stats := { p.stats with inFlight := p.stats.inFlight + 1 } }
    else p
  | [] => p

/-- Every free worker takes a job, as long as any waits. -/
def takeAll (p : Pool) : Pool := Nat.repeat take p.queue.length p

/-- The job of a number, if a worker has it. -/
def runningJob? (p : Pool) (number : Nat) : Option DeployJob :=
  (p.running.find? fun t => t.number = number).map (·.job)

/-- The jobs that workers have, without one. -/
def withoutJob (p : Pool) (number : Nat) : List Ticket :=
  p.running.filter fun t => t.number ≠ number

/-- A result counted. -/
def ended (s : PoolStats) (result : DeployResult) : PoolStats :=
  match result with
  | .ok _ => { s with inFlight := s.inFlight - 1, succeeded := s.succeeded + 1 }
  | .error _ => { s with inFlight := s.inFlight - 1, failed := s.failed + 1 }

/-- A worker is done with its job. -/
def finish (p : Pool) (number : Nat) (result : DeployResult) : Pool :=
  { p with
    running := p.withoutJob number
    results := Keyed.put number result p.results
    stats := ended p.stats result }

/-- A worker dies over its job. With the last worker all jobs that wait are lost. -/
def crash (p : Pool) (number : Nat) : Pool :=
  { p with
    workers := p.workers - 1
    queue := if p.workers ≤ 1 then [] else p.queue
    running := p.withoutJob number }

/-- Accept nothing more. -/
def close (p : Pool) : Pool := { p with isOpen := false }

/-- Every job that did not end, in order. -/
def unfinished (p : Pool) : List Ticket := p.running ++ p.queue

/-- What became of the job of a number. -/
def state (p : Pool) (number : Nat) : JobState :=
  if p.unfinished.any fun t => t.number = number then .pending
  else match Keyed.find? number p.results with
    | some r => .finished r
    | none => .lost

end Pool

end Deployment
