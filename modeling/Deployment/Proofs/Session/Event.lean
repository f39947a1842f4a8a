import Deployment.Data.Stateful
import Deployment.Session.Manager

/-! # Runs

A run of the manager is a list of events. Requests come in any order, workers take jobs and are
done with them at any time, and so the end of a job is noted at any time after that.

* **`Event`** — what can happen; **`Event.step`** — what it does.
* **`Note`** — what an event adds to the history; **`Event.notes`**.
* **`SessionManager.after`**, **`SessionManager.journal`** — the manager after a run, and the
  history of the run.
* **`outstanding`** — the jobs of a history whose end was not noted.
* **`Sample`** — a small service to run. -/

namespace Deployment

/-- What can happen to the manager. -/
inductive Event where
  | register (a : Account) (info : ResourceInfo) (requester : String) (id : Ulid)
      (now : Timestamp)
  | append (a : Account) (bytes : List UInt8)
  | finalize (a : Account) (now : Timestamp)
  | status (a : Account)
  /-- No other job is accepted. -/
  | close
  /-- A free worker takes the oldest job that waits. -/
  | take
  /-- A worker is done with its job. -/
  | finish (job : Nat)
  /-- The end of a job is noted. -/
  | record (ticket : Ticket) (now : Timestamp)
  /-- A worker dies over its job. -/
  | crash (job : Nat)
  /-- Somebody else changes the files. -/
  | files (t : FileTree)
  /-- Somebody else changes the metadata. -/
  | metadata (md : Metadata)
  /-- Records can be saved or loaded no longer, or again. -/
  | outage (saveDown loadDown : Bool)

/-- What is told of an event afterwards. -/
inductive Note where
  /-- A part of an upload was accepted. -/
  | accepted (upload : Nat) (part : List UInt8)
  /-- The pool accepted a job; the account had the upload of the number in progress. -/
  | submitted (upload : Option Nat) (ticket : Ticket)
  /-- The end of a job was noted. -/
  | recorded (ticket : Ticket) (result : DeployResult)

namespace SessionManager

/-- The manager over other files. -/
def withFiles (t : FileTree) (m : SessionManager) : SessionManager :=
  { m with plant := { m.plant with files := t } }

/-- The manager with another pool. -/
def withPool (p : Pool) (m : SessionManager) : SessionManager :=
  { m with plant := { m.plant with pool := p } }

/-- The account has the upload of the number in progress. -/
structure InProgress (m : SessionManager) (a : Account) (n : Nat) (u : Upload) : Prop where
  find : m.find? a = some n
  known : m.uploads[n]? = some u

/-- An account has one upload in progress. -/
theorem InProgress.unique {m : SessionManager} {a : Account} {n n' : Nat} {u u' : Upload}
    (h : m.InProgress a n u) (h' : m.InProgress a n' u') : n = n' ∧ u = u' := by
  obtain rfl : n = n' := Option.some.inj (h.find.symm.trans h'.find)
  exact ⟨rfl, Option.some.inj (h.known.symm.trans h'.known)⟩

/-- The account has an upload in progress that waits for its deployment. -/
def isVerifying (m : SessionManager) (a : Account) : Bool :=
  ((m.find? a).bind (m.uploads[·]?)).any fun u => u.status = .verifying

end SessionManager

namespace Event

/-- What an event does. The end of a job is noted if there is anything to note. -/
def step : Event → SessionManager → SessionManager
  | .register a info requester id now, m =>
    finalState (SessionManager.register a info requester id now) m
  | .append a bytes, m => finalState (SessionManager.append a bytes) m
  | .finalize a now, m => finalState (SessionManager.finalize a now) m
  | .status _, m => m
  | .close, m => m.withPool m.plant.pool.close
  | .take, m => m.withPool m.plant.pool.take
  | .finish job, m => { m with plant := m.plant.run job }
  | .record t now, m => if t ∈ m.pending then SessionManager.noteEnd now m t else m
  | .crash job, m => { m with plant := m.plant.crash job }
  | .files t, m => m.withFiles t
  | .metadata md, m => { m with plant := { m.plant with metadata := md } }
  | .outage saveDown loadDown, m =>
    { m with records := { m.records with saveDown := saveDown, loadDown := loadDown } }

/-- The parts that are accepted. -/
def parts : Event → SessionManager → List Note
  | .append a bytes, m => match SessionManager.append a bytes m, m.find? a with
    | .ok _ _, some n => [.accepted n bytes]
    | _, _ => []
  | _, _ => []

/-- The jobs that come into the queue. -/
def jobs (e : Event) (m : SessionManager) : List Note :=
  ((e.step m).plant.pool.queue.drop m.plant.pool.queue.length).map fun t =>
    .submitted (m.find? t.job.account) t

/-- The ends of jobs that are noted. -/
def ends : Event → SessionManager → List Note
  | .record t _, m => if t ∈ m.pending then
      match m.ended? t.number with
      | some r => [.recorded t r]
      | none => []
    else []
  | _, _ => []

/-- What is told of an event afterwards. -/
def notes (e : Event) (m : SessionManager) : List Note := e.parts m ++ e.jobs m ++ e.ends m

end Event

namespace SessionManager

/-- The manager after a run. -/
def after (m : SessionManager) : List Event → SessionManager
  | [] => m
  | e :: es => (e.step m).after es

/-- The history of a run. -/
def journal (m : SessionManager) : List Event → List Note
  | [] => []
  | e :: es => e.notes m ++ (e.step m).journal es

/-- One run after the other. -/
@[simp] theorem after_append (m : SessionManager) (es es' : List Event) :
    m.after (es ++ es') = (m.after es).after es' := by
  induction es generalizing m with
  | nil => rfl
  | cons e es ih => exact ih (e.step m)

/-- The journal of a run that goes on is that of its beginning, and then that of the rest. -/
@[simp] theorem journal_append (m : SessionManager) (es es' : List Event) :
    m.journal (es ++ es') = m.journal es ++ (m.after es).journal es' := by
  induction es generalizing m with
  | nil => rfl
  | cons e es ih => rw [List.cons_append, journal, journal, ih, List.append_assoc, after]

/-- What every event keeps up with its notes holds after every run. -/
theorem after_induct {Allowed : Event → Prop} {Holds : List Note → SessionManager → Prop}
    (step : ∀ h m e, Allowed e → Holds h m → Holds (h ++ e.notes m) (e.step m))
    {es : List Event} (hes : ∀ e ∈ es, Allowed e) {h : List Note} {m : SessionManager}
    (hm : Holds h m) : Holds (h ++ m.journal es) (m.after es) := by
  induction es generalizing h m with
  | nil => simpa [after, journal] using hm
  | cons e es ih =>
    rw [after, journal, ← List.append_assoc]
    exact ih (fun e' he' => hes e' (List.mem_cons_of_mem e he'))
      (step h m e (hes e (List.mem_cons_self ..)) hm)

/-- What every event at all keeps up with its notes holds after every run. -/
theorem after_induct_all {Holds : List Note → SessionManager → Prop}
    (step : ∀ h m (e : Event), Holds h m → Holds (h ++ e.notes m) (e.step m)) (es : List Event)
    {h : List Note} {m : SessionManager} (hm : Holds h m) :
    Holds (h ++ m.journal es) (m.after es) :=
  @after_induct (fun _ => True) Holds (fun h m e _ => step h m e) es (fun _ _ => trivial) h m hm

end SessionManager

/-- The open jobs after a note. -/
def Note.open (jobs : List (Option Nat × Ticket)) : Note → List (Option Nat × Ticket)
  | .accepted _ _ => jobs
  | .submitted n t => jobs ++ [(n, t)]
  | .recorded t _ => jobs.filter fun j => j.2 ≠ t

/-- The jobs that the pool accepted and whose end was not noted, with the numbers of their
uploads. -/
def outstanding (h : List Note) : List (Option Nat × Ticket) := h.foldl Note.open []

/-- What is outstanding after more notes is told by these and by what was outstanding before. -/
theorem outstanding_append (h notes : List Note) :
    outstanding (h ++ notes) = notes.foldl Note.open (outstanding h) := by
  simp [outstanding]

/-! ## A small service -/

namespace Sample

/-- The settings of a service. -/
def settings : Settings := { archiveDir := "root" }

/-- The service before anything happens. -/
def service : SessionManager := .start settings .empty .empty

/-- The one account that uploads to it. -/
def account : Account := ⟨"acme"⟩

/-- What the account uploads. -/
def descriptor : List UInt8 := Utf8.encode "\x7b\"name\":\"app\"\x7d"

/-- The deployment of that. -/
def job : DeployJob := ⟨account, "root/acme/app.json", none, "alice"⟩

/-- The time of everything that happens. -/
def now : Timestamp := ⟨0, 0, 0⟩

/-- The account begins an upload. -/
def begins (id : Nat) : Event :=
  .register account { account := account, fileName := "app.json" } "alice" ⟨id⟩ now

/-- The upload as it begins. -/
def fresh (id : Nat) : Upload where
  resource := ⟨account, "app", ⟨id⟩, 1⟩
  account := account
  archive := job.archive
  requester := job.requester
  createdAt := now

/-- The account ends its upload, and a worker takes the job. -/
def ends : List Event := [.finalize account now, .take]

/-- The account uploads its descriptor, and a worker is done with that. -/
def works : List Event := begins 0 :: .append account descriptor :: ends ++ [.finish 0]

/-- The account uploads its descriptor, and that is deployed. -/
def deploys : List Event := works ++ [.record ⟨0, job⟩ now]

end Sample

end Deployment
