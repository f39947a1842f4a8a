import Deployment.Deploy.Job
import Deployment.Proofs.Deploy.Registration

/-! # Ownership of what is deployed

A registration sets owners without a look at those that there are; that it takes nothing from
anybody is due to the gates before it. So what is deployed stays deployed, and stays with its owner,
however many deployments are run and however they end.

* **`DeployJob.Course`** — how a deployment goes, with what it leaves.
* **`Attempt`** — a deployment with the files and the unavailable requests that it meets.
* **`Metadata.Keeps`** — what is deployed is kept, with its owners.
* **`deployed_stays_owned`** — so after any attempts, one after the other. -/

namespace Deployment

open Stateful

/-! ## How a deployment goes -/

/-- A deployment sees of the files only its archive. -/
theorem DeployJob.load_congr {job : DeployJob} {t t' : FileTree}
    (h : t'.read job.archive = t.read job.archive) : job.load t' = job.load t := by
  have hread : readArchive t' job.archive = readArchive t job.archive := by
    simp only [readArchive, h]
  simp only [load, hread]

/-- A deployment runs alike on files that hold the same archive. -/
theorem DeployJob.run_congr {job : DeployJob} {t t' : FileTree}
    (h : t'.read job.archive = t.read job.archive) : job.run t' = job.run t := by
  rw [run, run, load_congr h]

/-- What a descriptor makes of a deployment. -/
def DeployJob.deployable (job : DeployJob) (spec : ApplicationSpec) : Deployable :=
  ⟨⟨job.account.name, spec.name, spec.version⟩, spec, job.archive, job.owner, job.requester⟩

/-- What is loaded is made of the descriptor that the archive holds. -/
theorem DeployJob.load_eq_ok {job : DeployJob} {t : FileTree} {d : Deployable}
    (h : job.load t = .ok d) :
    ∃ spec, readArchive t job.archive = .ok spec ∧ d = job.deployable spec := by
  rw [load] at h
  cases hread : readArchive t job.archive with
  | error f =>
    rw [hread] at h
    cases h
  | ok spec =>
    rw [hread] at h
    cases h
    exact ⟨spec, rfl, rfl⟩

/-- The owner that a deployment asks for is the one its application asks for. -/
theorem DeployJob.owner_of_load {job : DeployJob} {t : FileTree} {d : Deployable}
    (h : job.load t = .ok d) : d.owner = job.owner := by
  obtain ⟨spec, -, rfl⟩ := load_eq_ok h
  rfl

/-- How a deployment goes: nothing is loaded, or a gate is not passed, or the application is
registered from metadata in which it was admissible. -/
inductive DeployJob.Course (job : DeployJob) (t : FileTree) (m : Metadata) :
    EStateM.Result DeployFault Metadata Deployed → Prop
  | unloaded (f : DeployFault) (load : job.load t = .error f) : Course job t m (.error f m)
  | refused (d : Deployable) (f : VerificationFault) (m' : Metadata) (load : job.load t = .ok d)
      (looked : m.Looked m') : Course job t m (.error (.verification f) m')
  | stored (d : Deployable) (m' : Metadata) (load : job.load t = .ok d) (looked : m.Looked m')
      (admissible : d.Admissible m) : Course job t m (d.store m')

/-- What is loaded has to pass the gates before it is stored. -/
theorem DeployJob.run_of_load {job : DeployJob} {t : FileTree} {d : Deployable}
    (h : job.load t = .ok d) : job.run t = d.verify >>= fun d => d.store := by
  rw [run, h]
  rfl

/-- Every deployment goes in one of these ways. -/
theorem DeployJob.course (job : DeployJob) (t : FileTree) (m : Metadata) :
    job.Course t m (job.run t m) := by
  cases hload : job.load t with
  | error f =>
    have hrun : job.run t m = .error f m := by
      rw [run, hload]
      rfl
    exact hrun ▸ .unloaded f hload
  | ok d =>
    rw [run_of_load hload, run_bind, Deployable.verify]
    have hlooks := d.approve_yields.looks ⟨m, .empty⟩ VerifierRegistry.faithful_empty
    -- The gates have only looked, whether they let the job through or not.
    cases hgates : d.approve ⟨m, .empty⟩ with
    | error f g =>
      rw [finalState_of_error hgates] at hlooks
      exact .refused d f g.metadata hload hlooks.1
    | ok d' g =>
      rw [finalState_of_ok hgates] at hlooks
      obtain ⟨rfl, hadm⟩ := d.approve_yields.sound VerifierRegistry.faithful_empty hgates
      exact .stored d' g.metadata hload hlooks.1 hadm

/-- Where every request is available, what is admissible passes the gates. -/
theorem Deployable.verify_of_admissible {d : Deployable} {m : Metadata} (h : d.Admissible m)
    (hdown : m.down = []) : ∃ m', m.Looked m' ∧ d.verify m = .ok d m' := by
  obtain ⟨g, hgates⟩ := d.approve_yields.complete (g := ⟨m, .empty⟩) (a := d)
    VerifierRegistry.faithful_empty hdown ⟨rfl, h⟩
  have hlooks := d.approve_yields.looks ⟨m, .empty⟩ VerifierRegistry.faithful_empty
  rw [finalState_of_ok hgates] at hlooks
  refine ⟨g.metadata, hlooks.1, ?_⟩
  rw [verify, hgates]

/-- A registration within a deployment is what it is on its own, but for the name of its fault. -/
theorem Deployable.store_run (d : Deployable) (m : Metadata) :
    d.store m = match d.register m with
      | .ok p m' => .ok p m'
      | .error f m' => .error (.registration f) m' := by
  simp only [store, EStateM.adaptExcept]
  cases d.register m <;> rfl

/-- A deployment that succeeds registers what it loaded, from metadata in which that was
admissible. -/
theorem DeployJob.run_eq_ok {job : DeployJob} {t : FileTree} {m m' : Metadata} {p : Deployed}
    (h : job.run t m = .ok p m') :
    ∃ d m₁, job.load t = .ok d ∧ m.Looked m₁ ∧ d.Admissible m ∧ d.register m₁ = .ok p m' := by
  have hcourse := job.course t m
  generalize job.run t m = result at hcourse h
  cases hcourse with
  | unloaded f load => cases h
  | refused d f m₁ load looked => cases h
  | stored d m₁ load looked admissible =>
    rw [d.store_run] at h
    cases hregister : d.register m₁ with
    | error f m₂ =>
      rw [hregister] at h
      cases h
    | ok p' m₂ =>
      rw [hregister] at h
      cases h
      exact ⟨d, m₁, load, looked, admissible, hregister⟩

/-- What a deployment leaves of its registration is what the registration leaves. -/
@[simp] theorem Deployable.finalState_store (d : Deployable) (m : Metadata) :
    finalState d.store m = finalState d.register m := by
  simp only [finalState, store_run]
  cases d.register m <;> rfl

/-- A deployment leaves the metadata as it was but for looks, or it leaves what the registration
leaves of an application that was admissible. -/
theorem DeployJob.leaves (job : DeployJob) (t : FileTree) (m : Metadata) :
    m.Looked (finalState (job.run t) m) ∨
      ∃ d m₁, job.load t = .ok d ∧ m.Looked m₁ ∧ d.Admissible m ∧
        finalState (job.run t) m = finalState d.register m₁ := by
  have hcourse := job.course t m
  generalize hresult : job.run t m = result at hcourse
  cases hcourse with
  | unloaded f load =>
    left
    rw [finalState_of_error hresult]
  | refused d f m₁ load looked =>
    left
    rw [finalState_of_error hresult]
    exact looked
  | stored d m₁ load looked admissible =>
    refine .inr ⟨d, m₁, load, looked, admissible, ?_⟩
    rw [← d.finalState_store, finalState, hresult, finalState]

/-! ## Attempts -/

/-- A deployment with the files and the unavailable requests that it meets. -/
structure Attempt where
  job : DeployJob
  files : FileTree
  down : List Metadata.Request := []

namespace Metadata

/-- The metadata with other requests unavailable. -/
def lacking (m : Metadata) (down : List Request) : Metadata := { m with down := down }

/-- What is left of an attempt, whether or not it succeeded. -/
def after (m : Metadata) (a : Attempt) : Metadata :=
  finalState (a.job.run a.files) (m.lacking a.down)

/-- What is left of some attempts, one after the other. -/
def afterAll (m : Metadata) (as : List Attempt) : Metadata := as.foldl after m

/-- Whatever holds at first and is kept by every attempt holds after all of them. -/
theorem afterAll_induct {P : Metadata → Prop} {m : Metadata} (h : P m)
    (hstep : ∀ m a, P m → P (after m a)) (as : List Attempt) : P (m.afterAll as) := by
  induction as generalizing m with
  | nil => exact h
  | cons a as ih =>
    rw [afterAll, List.foldl_cons]
    exact ih (hstep m a h)

/-- Which requests are available has nothing to do with what is deployed. -/
@[simp] theorem has_lacking (m : Metadata) (down : List Request) (e : EntityId) :
    (m.lacking down).Has e ↔ m.Has e := by
  cases e <;> rfl

/-- Looks at datasets deploy nothing. -/
theorem has_of_looked {m m' : Metadata} (h : m.Looked m') (e : EntityId) : m'.Has e ↔ m.Has e := by
  obtain ⟨looks, rfl⟩ := h
  cases e <;> rfl

/-! ## What is kept -/

/-- What is deployed is kept: every stored version, every dataset as it is, and the owner of each
of them. -/
structure Keeps (m m' : Metadata) : Prop where
  versions : ∀ id, Keyed.contains id m.applications → Keyed.contains id m'.applications
  datasets : ∀ id x, Keyed.find? id m.datasets = some x → Keyed.find? id m'.datasets = some x
  owners : ∀ e, m.Has e → m'.ownerOf e = m.ownerOf e

namespace Keeps

/-- What is deployed is kept where nothing is done. -/
@[refl] theorem refl (m : Metadata) : m.Keeps m where
  versions _ h := h
  datasets _ _ h := h
  owners _ _ := rfl

variable {m m' m'' : Metadata}

/-- What is there stays there. -/
theorem has (h : m.Keeps m') {e : EntityId} (he : m.Has e) : m'.Has e := by
  cases e with
  | application ref =>
    obtain ⟨id, href, hid⟩ := he
    exact ⟨id, href, h.versions id hid⟩
  | dataset id =>
    obtain ⟨x, hx⟩ := (m.hasDataset_iff id).1 he
    exact (m'.hasDataset_iff id).2 ⟨x, h.datasets id x hx⟩

/-- What is kept and kept again is kept. -/
theorem trans (h : m.Keeps m') (h' : m'.Keeps m'') : m.Keeps m'' where
  versions id hid := h'.versions id (h.versions id hid)
  datasets id x hx := h'.datasets id x (h.datasets id x hx)
  owners e he := (h'.owners e (h.has he)).trans (h.owners e he)

/-- Looks at datasets keep what is deployed. -/
theorem of_looked (h : m.Looked m') : m.Keeps m' := by
  obtain ⟨looks, rfl⟩ := h
  exact ⟨fun _ hid => hid, fun _ _ hx => hx, fun _ _ => rfl⟩

/-- A registration keeps what is deployed if the owner that is asked for already owns the
application, in case there are versions of it. -/
theorem of_extends {d : Deployable} (h : d.Extends m m')
    (howned : m.Has (.application d.id.ref) → m.ownerOf (.application d.id.ref) = d.owner) :
    m.Keeps m' where
  versions _ hid := h.keepsVersion hid
  datasets _ _ hx := h.keepsDataset hx
  owners e he := by
    rcases h.owners e with heq | ⟨howner, -, hfree⟩
    · exact heq
    · -- only the owner of the application itself can have been set: the others are new
      obtain rfl := hfree.resolve_right fun hnot => hnot he
      rw [howner, howned he]

end Keeps

/-- A deployment keeps what is deployed, whether or not it succeeds. -/
theorem keeps_run (job : DeployJob) (t : FileTree) (m : Metadata) :
    m.Keeps (finalState (job.run t) m) := by
  obtain looked | ⟨d, m', -, looked, admissible, hleft⟩ := job.leaves t m
  · exact .of_looked looked
  · rw [hleft]
    -- Past the gates every entity of the job belongs to its owner, so registering takes from
    -- nobody.
    refine (Keeps.of_looked looked).trans (.of_extends (d.register_registers.extending m') ?_)
    exact ((d.passGates_decides.stable looked (a := ())).2 admissible).owned

/-- An attempt keeps what is deployed. -/
theorem keeps_after (m : Metadata) (a : Attempt) : m.Keeps (m.after a) :=
  -- which requests are available has no part in what is kept
  have hlacking : m.Keeps (m.lacking a.down) := ⟨fun _ h => h, fun _ _ h => h, fun _ _ => rfl⟩
  hlacking.trans (keeps_run a.job a.files _)

/-- All attempts keep what is deployed. -/
theorem keeps_afterAll (m : Metadata) (as : List Attempt) : m.Keeps (m.afterAll as) :=
  afterAll_induct (Keeps.refl m) (fun m' a h => h.trans (m'.keeps_after a)) as

end Metadata

/-- Whoever owns something that is deployed goes on to own it, and it goes on to be what it is: a
deployment keeps it whichever requests are unavailable and however it ends, and so does whatever is
deployed after that. -/
theorem deployed_stays_owned (m : Metadata) :
    (∀ a : Attempt, m.Keeps (m.after a)) ∧
      ∀ as as' : List Attempt, (m.afterAll as).Keeps (m.afterAll (as ++ as')) := by
  refine ⟨m.keeps_after, fun as as' => ?_⟩
  rw [Metadata.afterAll, Metadata.afterAll, List.foldl_append]
  exact Metadata.keeps_afterAll _ as'

end Deployment
