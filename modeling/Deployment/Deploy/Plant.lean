import Deployment.Deploy.Pool

/-! # Running deployments

A plant is a pool of workers with the files and the metadata that the workers change.

* **`Plant`** — all three.
* **`Plant.submit`** — ask for a deployment.
* **`Plant.run`** — a worker runs the job that it has.
* **`Plant.shutdown`** — run all jobs that were accepted, and accept no other. -/

namespace Deployment

/-- A pool of workers with what the workers change. -/
structure Plant where
  files : FileTree := .empty
  metadata : Metadata := .empty
  pool : Pool

namespace Plant

/-- Ask for a deployment; the answer is the number of the job. -/
def submit (job : DeployJob) : EStateM DeployFault Plant Nat := fun p =>
  match Pool.submit job p.pool with
  | .ok number pool => .ok number { p with pool := pool }
  | .error f pool => .error f { p with pool := pool }

/-- Every free worker takes a job. -/
def takeAll (p : Plant) : Plant := { p with pool := p.pool.takeAll }

/-- The worker that has the job of a number runs it. -/
def run (p : Plant) (number : Nat) : Plant :=
  match p.pool.runningJob? number with
  | none => p
  | some job => match job.run p.files p.metadata with
    | .ok d m => { p with metadata := m, pool := p.pool.finish number (.ok d) }
    | .error f m => { p with metadata := m, pool := p.pool.finish number (.error f) }

/-- Run the oldest of the jobs that workers have, after all free workers have taken one. -/
def runNext (p : Plant) : Plant :=
  let p := p.takeAll
  match p.pool.running with
  | t :: _ => p.run t.number
  | [] => p

/-- Run all jobs that were accepted, one after the other. -/
def runAll (p : Plant) : Plant := Nat.repeat runNext p.pool.unfinished.length p

/-- The worker that has the job of a number dies over it. -/
def crash (p : Plant) (number : Nat) : Plant :=
  match p.pool.runningJob? number with
  | none => p
  | some _ => { p with pool := p.pool.crash number }

/-- Accept no other job, and run those that were accepted. -/
def shutdown (p : Plant) : Plant := { p with pool := p.pool.close }.runAll

end Plant

end Deployment
