import Deployment.Proofs.Deploy.Retry
import Deployment.Proofs.Verification.Alike

/-! # Deployments into different namespaces

A deployment reads and changes what is known of its own namespace and nothing else. So it goes alike
wherever the same is known of that, it leaves every other namespace as it was, and it does not
matter in which order the deployments of two accounts are run.

* **`Deployable.register_steady`**, **`DeployJob.run_steady`** — a registration goes alike, and so
  does a deployment.
* **`DeployJob.run_spares`** — a deployment spares every other namespace.
* **`Metadata.Equivalent`** — the same is known of everything, and the same looks were noted.
* **`deployments_keep_to_their_namespace`** — what follows for one deployment, and for two. -/

namespace Deployment

open Stateful

/-! ## Requests that change the metadata -/

namespace Metadata

variable {scope : String} {noted noted' : List Lookup} {m m' : Metadata}

/-- Metadata that is changed, but for its looks, stays in step if it still agrees. -/
theorem InStep.change (h : InStep scope noted noted' m m') (change : Metadata → Metadata)
    (hlooks : ∀ m, (change m).lookups = m.lookups)
    (hagrees : m.Agrees scope m' → (change m).Agrees scope (change m')) :
    InStep scope noted noted' (change m) (change m') := by
  refine ⟨hagrees h.agrees, ?_⟩
  rw [hlooks, hlooks]
  exact h.looks

/-- The same entry put into tables that agree on a key. -/
theorem find?_put_congr {κ α : Type} [DecidableEq κ] {t t' : Keyed κ α} {k : κ}
    (h : Keyed.find? k t' = Keyed.find? k t) (k₀ : κ) (v : α) :
    Keyed.find? k (Keyed.put k₀ v t') = Keyed.find? k (Keyed.put k₀ v t) := by
  rw [Keyed.find?_put, Keyed.find?_put, h]

/-- An owner is set alike in metadata that is in step. -/
theorem setOwner_steady (e : EntityId) (o : Principal) :
    Steady (InStep scope noted noted') (setOwner e o) := by
  intro m m' h
  have hdown' : m'.down.contains Request.setOwner = m.down.contains .setOwner := by
    rw [h.agrees.down]
  rw [setOwner_run, setOwner_run, hdown']
  by_cases hdown : m.down.contains .setOwner
  · rw [if_pos hdown, if_pos hdown]
    exact .error _ h
  · rw [if_neg hdown, if_neg hdown]
    refine .ok rfl (h.change (fun m => { m with owners := Keyed.put e o m.owners })
      (fun _ => rfl) fun ha => { ha with owners := fun e' he' => ?_ })
    exact find?_put_congr (ha.owners e' he') e o

/-- A version is stored alike in metadata that is in step. -/
theorem addApplication_steady (a : StoredApplication) :
    Steady (InStep scope noted noted') (addApplication a) := by
  intro m m' h
  have hdown' : m'.down.contains Request.addApplication = m.down.contains .addApplication := by
    rw [h.agrees.down]
  rw [addApplication_run, addApplication_run, hdown']
  by_cases hdown : m.down.contains .addApplication
  · rw [if_pos hdown, if_pos hdown]
    exact .error _ h
  · rw [if_neg hdown, if_neg hdown]
    refine .ok rfl (h.change (fun m => { m with applications := Keyed.put a.id a m.applications })
      (fun _ => rfl) fun ha => { ha with applications := fun id hid => ?_ })
    exact find?_put_congr (ha.applications id hid) a.id a

/-- A dataset of the namespace is created in both or in none. -/
theorem addDataset_steady {id : DatasetId} (hid : id.scope = scope) (spec : DatasetInstance)
    (owner : Option Principal) : Steady (InStep scope noted noted') (addDataset id spec owner) := by
  intro m m' h
  have hdown' : m'.down.contains Request.addDataset = m.down.contains .addDataset := by
    rw [h.agrees.down]
  have hhas' : m'.hasDataset id = m.hasDataset id :=
    Bool.eq_iff_iff.2 (h.agrees.has (e := .dataset id) hid)
  rw [addDataset_run, addDataset_run, hdown', hhas']
  by_cases hdown : m.down.contains .addDataset
  · rw [if_pos hdown, if_pos hdown]
    exact .error _ h
  · rw [if_neg hdown, if_neg hdown]
    by_cases hhas : m.hasDataset id
    · rw [if_pos hhas, if_pos hhas]
      exact .error _ h
    · rw [if_neg hhas, if_neg hhas]
      refine .ok rfl (h.change
        (fun m => { m with datasets := Keyed.put id ⟨spec, owner⟩ m.datasets })
        (fun _ => rfl) fun ha => { ha with datasets := fun id' hid' => ?_ })
      exact find?_put_congr (ha.datasets id' hid') id _

end Metadata

/-! ## Registration and deployment -/

namespace Deployable

variable (d : Deployable) {noted noted' : List Lookup} {m m' : Metadata}

/-- An entity is taken alike in metadata that is in step. -/
theorem own_steady (e : EntityId) :
    Steady (Metadata.InStep d.id.scope noted noted') (d.own e) := by
  rw [own]
  cases d.owner with
  | some o => exact Metadata.setOwner_steady e o
  | none => exact Steady.pure ()

/-- A dataset is created alike in metadata that is in step. -/
theorem createDataset_steady (s : DatasetSpec) :
    Steady (Metadata.InStep d.id.scope noted noted') (d.createDataset s) := by
  intro m m' h
  have hid : (d.id.dataset s.name).scope = d.id.scope := rfl
  have hadd := Metadata.addDataset_steady hid s.toInstance d.owner m m' h
  simp only [createDataset]
  generalize Metadata.addDataset (d.id.dataset s.name) s.toInstance d.owner m = r,
    Metadata.addDataset (d.id.dataset s.name) s.toInstance d.owner m' = r' at hadd
  cases hadd with
  | ok value state => exact d.own_steady _ _ _ state
  | error f state =>
    -- That it exists already is no fault here, any other is passed on.
    cases f with
    | alreadyExists e => exact .ok rfl state
    | unavailable what => exact .error _ state
    | unauthorized principal e => exact .error _ state

/-- A registration goes alike wherever the same is known of the namespace. -/
theorem register_steady : Steady (Metadata.InStep d.id.scope noted noted') d.register :=
  (Steady.forM fun s _ => d.createDataset_steady s).bind fun _ =>
    (Metadata.application_steady rfl).bind fun _ =>
      (Metadata.addApplication_steady _).bind fun _ =>
        (d.own_steady _).bind fun _ => Steady.pure _

/-- The gates decide alike on metadata that is in step. -/
theorem verify_alike : Alike (Metadata.InStep d.id.scope noted noted')
    (fun d₁ d₂ => d₁ = d ∧ d₂ = d) d.verify d.verify := by
  intro m m' h
  have hgates := d.approve_alike ⟨m, .empty⟩ ⟨m', .empty⟩ ⟨h, rfl⟩
  simp only [verify]
  generalize d.approve ⟨m, .empty⟩ = r, d.approve ⟨m', .empty⟩ = r' at hgates
  cases hgates with
  | ok value state => exact .ok value state.metadata
  | error f state => exact .error _ state.metadata

/-- An application is stored alike in metadata that is in step. -/
theorem store_steady : Steady (Metadata.InStep d.id.scope noted noted') d.store := by
  intro m m' h
  have hregister := d.register_steady m m' h
  rw [store_run, store_run]
  generalize d.register m = r, d.register m' = r' at hregister
  cases hregister with
  | ok value state => exact .ok value state
  | error f state => exact .error _ state

/-- Metadata in which some of an application was registered is as before in other namespaces. -/
theorem Extends.agrees {d : Deployable} (h : d.Extends m m') {scope : String}
    (hscope : scope ≠ d.id.scope) : m.Agrees scope m' where
  applications id hid := by
    rcases h.applications id with heq | ⟨rfl, -⟩
    · exact heq
    · exact absurd hid.symm hscope
  datasets id hid := by
    rcases h.datasets id with heq | ⟨-, s, -, rfl, -⟩
    · exact heq
    · exact absurd hid.symm hscope
  owners e he := by
    rcases h.owners e with heq | ⟨-, hhas, rfl | hnew⟩
    · exact heq
    · exact absurd he.symm hscope
    · -- what is new is the application or one of its datasets
      rcases h.new hhas hnew with rfl | ⟨s, -, rfl, -⟩
      · exact absurd he.symm hscope
      · exact absurd he.symm hscope
  impersonation := by rw [h.impersonation]
  restrictedTo := h.restrictedTo
  down := h.down

end Deployable

namespace DeployJob

variable {job : DeployJob} {t : FileTree} {noted noted' : List Lookup}

/-- What is loaded is deployed into the namespace of the account. -/
theorem scope_of_load {d : Deployable} (h : job.load t = .ok d) :
    d.id.scope = job.account.name := by
  rw [load] at h
  cases hread : readArchive t job.archive with
  | error f =>
    rw [hread] at h
    cases h
  | ok spec =>
    rw [hread] at h
    cases h
    rfl

variable (job t)

/-- A deployment goes alike wherever the same is known of the namespace of its account. -/
theorem run_steady : Steady (Metadata.InStep job.account.name noted noted') (job.run t) := by
  cases hload : job.load t with
  | error f =>
    have hrun : job.run t = throw f := by
      rw [run, hload]
      rfl
    exact hrun ▸ Alike.throw f
  | ok d =>
    rw [run_of_load hload, ← scope_of_load hload]
    refine Alike.bind d.verify_alike fun d₁ d₂ hsame => ?_
    rw [hsame.1, hsame.2]
    exact d.store_steady

/-- A deployment spares every namespace but that of its account. -/
theorem run_spares (m : Metadata) {scope : String} (hscope : scope ≠ job.account.name) :
    m.Agrees scope (finalState (job.run t) m) := by
  -- Looking changes no namespace, and registering only the one of the job.
  obtain looked | ⟨d, m', load, looked, -, hleft⟩ := job.leaves t m
  · exact .of_looked looked scope
  · rw [← scope_of_load load] at hscope
    rw [hleft]
    exact (Metadata.Agrees.of_looked looked scope).trans
      ((d.register_registers.extending m').agrees hscope)

end DeployJob

/-! ## Two deployments -/

namespace Metadata

/-- The same is known of everything, and the same looks at datasets were noted in some order. -/
structure Equivalent (m m' : Metadata) : Prop where
  applications : ∀ id, Keyed.find? id m'.applications = Keyed.find? id m.applications
  datasets : ∀ id, Keyed.find? id m'.datasets = Keyed.find? id m.datasets
  owners : ∀ e, m'.ownerOf e = m.ownerOf e
  impersonation : ∀ scope, Keyed.find? scope m'.impersonation = Keyed.find? scope m.impersonation
  restrictedTo : m'.restrictedTo = m.restrictedTo
  down : m'.down = m.down
  lookups : m'.lookups.Perm m.lookups

/-- Metadata that agrees on every namespace is the same but for the looks. -/
theorem Equivalent.of_agrees {m m' : Metadata} (h : ∀ scope, m.Agrees scope m')
    (hlooks : m'.lookups.Perm m.lookups) : m.Equivalent m' where
  applications id := (h id.scope).applications id rfl
  datasets id := (h id.scope).datasets id rfl
  owners e := (h e.scope).owners e rfl
  impersonation scope := (h scope).impersonation
  restrictedTo := (h "").restrictedTo
  down := (h "").down
  lookups := hlooks

end Metadata

/-- A deployment of another account does not change what a deployment gives and does. -/
theorem DeployJob.run_after_other {job other : DeployJob} (h : other.account ≠ job.account)
    (t t' : FileTree) (m : Metadata) :
    answer (job.run t) (finalState (other.run t') m) = answer (job.run t) m ∧
      Metadata.InStep job.account.name m.lookups (finalState (other.run t') m).lookups
        (finalState (job.run t) m) (finalState (job.run t) (finalState (other.run t') m)) := by
  have hscope : job.account.name ≠ other.account.name := fun hname =>
    h (congrArg Account.mk hname.symm)
  exact (job.run_steady t).answer_eq (other.run_spares t' m hscope).inStep

/-- In whichever order the deployments of two accounts are run, they leave the same. -/
theorem DeployJob.run_comm {job other : DeployJob} (h : other.account ≠ job.account)
    (t t' : FileTree) (m : Metadata) :
    (finalState (other.run t') (finalState (job.run t) m)).Equivalent
      (finalState (job.run t) (finalState (other.run t') m)) := by
  have hjob := (run_after_other h t t' m).2
  have hother := (run_after_other (Ne.symm h) t' t m).2
  refine .of_agrees (fun scope => ?_) ?_
  · by_cases hscope : scope = job.account.name
    · -- the other deployment comes last or first, and spares the namespace either way
      have hne : scope ≠ other.account.name := fun hname =>
        h (congrArg Account.mk (hname.symm.trans hscope))
      rw [hscope] at hne ⊢
      exact (other.run_spares t' _ hne).symm.trans hjob.agrees
    · by_cases hscope' : scope = other.account.name
      · rw [hscope'] at hscope ⊢
        exact hother.agrees.symm.trans (job.run_spares t _ hscope)
      · have hspares := (job.run_spares t m hscope).trans (other.run_spares t' _ hscope')
        exact hspares.symm.trans
          ((other.run_spares t' m hscope').trans (job.run_spares t _ hscope))
  · obtain ⟨looks, hfirst, hlast⟩ := hjob.looks
    obtain ⟨looks', hfirst', hlast'⟩ := hother.looks
    rw [hlast, hlast', hfirst, hfirst', List.append_assoc, List.append_assoc]
    exact List.perm_append_comm.append_left m.lookups

/-- A deployment keeps to the namespace of its account. From the same archive it gives the same
wherever the same is known of the namespace, and leaves the same known of it; every other namespace
stays as it was. So for two accounts it does not matter whose deployment is run first: each gives
what it gives on its own, and the same is known in the end. -/
theorem deployments_keep_to_their_namespace (job : DeployJob) {t t' : FileTree} {m m' : Metadata}
    (same : t'.read job.archive = t.read job.archive) (agrees : m.Agrees job.account.name m') :
    (answer (job.run t') m' = answer (job.run t) m ∧
      (finalState (job.run t) m).Agrees job.account.name (finalState (job.run t') m')) ∧
    (∀ scope, scope ≠ job.account.name → m.Agrees scope (finalState (job.run t) m) ∧
      m'.Agrees scope (finalState (job.run t') m')) ∧
    ∀ (other : DeployJob) (t₂ : FileTree), other.account ≠ job.account →
      let jobFirst := finalState (job.run t) m
      let otherFirst := finalState (other.run t₂) m
      answer (other.run t₂) jobFirst = answer (other.run t₂) m ∧
      answer (job.run t) otherFirst = answer (job.run t) m ∧
      (finalState (other.run t₂) jobFirst).Equivalent (finalState (job.run t) otherFirst) := by
  refine ⟨?_, fun scope hscope => ?_, fun other t₂ hother => ?_⟩
  · rw [DeployJob.run_congr same]
    -- Both runs go the same way, since they see the same archive and the same namespace.
    have halike := (job.run_steady t).answer_eq agrees.inStep
    exact ⟨halike.1, halike.2.agrees⟩
  · exact ⟨job.run_spares t m hscope, job.run_spares t' m' hscope⟩
  · exact ⟨(DeployJob.run_after_other (Ne.symm hother) t₂ t m).1,
      (DeployJob.run_after_other hother t t₂ m).1, DeployJob.run_comm hother t t₂ m⟩

namespace Sample

/-- The deployment of the same application for another account and another owner. -/
def neighbouring : DeployJob := ⟨⟨"other"⟩, "app.json", some ⟨"bob@R"⟩, "bob"⟩

/-- The files, with one more that has nothing to do with the archive. -/
def crowdedFiles : FileTree := finalState (Files.write "more.json" [0x7b]) ownedFiles

end Sample

open Sample in
/-- An application is deployed beside the neighbour's of the same name as it is on its own. -/
theorem deploys_beside_neighbour :
    let job := (owning []).job
    let m' := finalState (neighbouring.run ownedFiles) .empty
    crowdedFiles.read job.archive = ownedFiles.read job.archive ∧
      Metadata.empty.Agrees job.account.name m' ∧
      m'.ownerOf (.application ⟨"other", "app"⟩) = some ⟨"bob@R"⟩ ∧
      (answer (job.run ownedFiles) .empty).isOk = true ∧
      answer (job.run crowdedFiles) m' = answer (job.run ownedFiles) .empty ∧
      (finalState (neighbouring.run ownedFiles) (finalState (job.run ownedFiles) .empty)).Equivalent
        (finalState (job.run ownedFiles) m') := by
  intro job m'
  have hread : (ownedFiles.read job.archive).toOption.isSome = true ∧
      (crowdedFiles.read job.archive).toOption = (ownedFiles.read job.archive).toOption := by
    decide +kernel
  obtain ⟨bytes, hbytes⟩ := Option.isSome_iff_exists.1 hread.1
  have hsame : crowdedFiles.read job.archive = ownedFiles.read job.archive :=
    (Failing.eq_ok_of_toOption (hread.2.trans hbytes)).trans (Failing.eq_ok_of_toOption hbytes).symm
  have hagrees : Metadata.empty.Agrees job.account.name m' :=
    neighbouring.run_spares ownedFiles .empty (by decide)
  obtain ⟨halike, -, htwo⟩ := deployments_keep_to_their_namespace job hsame hagrees
  exact ⟨hsame, hagrees, by decide +kernel, by decide +kernel, halike.1,
    (htwo neighbouring ownedFiles (by decide)).2.2⟩

end Deployment
