import Deployment.Proofs.Deploy.Retry
import Deployment.Proofs.Verification.Kinds

/-! # What a deployment leaves

A deployment that succeeds leaves what its descriptor declares, for the owner that is asked for,
and everything else as it was. Part of that is due to the registration, and part to the gates: a
dataset that exists is not created, so that its type and its owner are those that the gates found.

* **`Deployable.Stands`** — an application is deployed as it is declared.
* **`Deployable.Leaves`** — it is, and everything else is as before.
* **`Deployable.Created`** — what the loop over the datasets has done.
* **`deploys_what_is_declared`** — what a deployment leaves, with what it tells.
* **`deploys_again_unchanged`** — the same deployment, made at once once more, changes nothing. -/

namespace Deployment

open Stateful

namespace Deployable

variable {d : Deployable} {m m' m'' : Metadata}

/-- The application is deployed as it is declared: it is stored, every dataset exists with the
declared type, and all that belongs to the owner that is asked for. -/
structure Stands (d : Deployable) (m : Metadata) : Prop where
  stored : Keyed.find? d.id m.applications = some d.record
  datasets : ∀ s ∈ d.spec.datasets.values, ∃ x,
    Keyed.find? (d.id.dataset s.name) m.datasets = some x ∧ x.spec.kind = s.kind
  owned : ∀ o, d.owner = some o → ∀ e ∈ d.entities, m.ownerOf e = some o

/-- The application is deployed as it is declared, and everything else is as before: the other
applications and datasets, their owners, and where no owner is asked for, every owner. A dataset
that is new is the declared one; one that existed is as it was. -/
structure Leaves (d : Deployable) (m m' : Metadata) : Prop where
  stands : d.Stands m'
  datasets : ∀ s ∈ d.spec.datasets.values,
    Keyed.find? (d.id.dataset s.name) m'.datasets =
      some ((Keyed.find? (d.id.dataset s.name) m.datasets).getD ⟨s.toInstance, d.owner⟩)
  unowned : d.owner = none → m'.owners = m.owners
  otherApplications : ∀ id, id ≠ d.id →
    Keyed.find? id m'.applications = Keyed.find? id m.applications
  otherDatasets : ∀ id, .dataset id ∉ d.entities →
    Keyed.find? id m'.datasets = Keyed.find? id m.datasets
  otherOwners : ∀ e, e ∉ d.entities → m'.ownerOf e = m.ownerOf e

/-! ## The loop over the datasets -/

/-- The declared datasets of a list were gone through: all of them exist, the applications are as
they were, and an owner was set exactly where one is asked for and the dataset is new. -/
structure Created (d : Deployable) (l : List DatasetSpec) (m m' : Metadata) : Prop where
  extending : d.Extends m m'
  applications : m'.applications = m.applications
  there : ∀ s ∈ l, m'.Has (.dataset (d.id.dataset s.name))
  owned : d.owner.isSome → d.Owns m m'
  unowned : d.owner = none → m'.owners = m.owners

namespace Created

/-- Of no datasets, none is created. -/
theorem nil (m : Metadata) : d.Created [] m m where
  extending := .refl m
  applications := rfl
  there _ hs := nomatch hs
  owned _ _ he hnew := absurd he hnew
  unowned _ := rfl

/-- One after the other. -/
theorem append {l l' : List DatasetSpec} (h : d.Created l m m') (h' : d.Created l' m' m'') :
    d.Created (l ++ l') m m'' where
  extending := h.extending.trans h'.extending
  applications := h'.applications.trans h.applications
  there s hs := by
    rcases List.mem_append.1 hs with hs | hs
    · exact h'.extending.has (h.there s hs)
    · exact h'.there s hs
  owned hsome := (h.owned hsome).trans (h'.owned hsome) h'.extending
  unowned hnone := (h'.unowned hnone).trans (h.unowned hnone)

end Created

/-- To take an entity over changes owners only. -/
@[simp] theorem applications_taking (d : Deployable) (e : EntityId) (m : Metadata) :
    (d.taking e m).applications = m.applications := by
  cases ho : d.owner <;> simp only [taking, ho]

/-- Where no owner is asked for, nothing is taken. -/
theorem taking_of_unowned (hnone : d.owner = none) (e : EntityId) (m : Metadata) :
    d.taking e m = m := by
  simp only [taking, hnone]

/-- One turn of the loop. -/
theorem createDataset_created {s : DatasetSpec} (hs : s ∈ d.spec.datasets.values)
    (h : d.createDataset s m = .ok () m') : d.Created [s] m m' := by
  -- Either it was there and nothing has changed, or it was not and has been made.
  rcases createDataset_ok h with ⟨hhas, rfl⟩ | ⟨hnew, rfl⟩
  · exact { Created.nil m' with there := fun s' hs' => List.mem_singleton.1 hs' ▸ hhas }
  · have hadds := adds_dataset hs hnew
    constructor
    · exact hadds.taking_extends
    · rw [creating, applications_taking]
    · intro s' hs'
      obtain rfl := List.mem_singleton.1 hs'
      exact (d.has_taking _ _ _).2 hadds.there
    · intro hsome
      exact hadds.taking_owns (.inl hsome)
    · intro hnone
      rw [creating, taking_of_unowned hnone]

/-- The loop as a whole, by induction on the datasets that it goes through. -/
theorem forM_created {l : List DatasetSpec} (hl : ∀ s ∈ l, s ∈ d.spec.datasets.values)
    (h : l.forM d.createDataset m = .ok () m') : d.Created l m m' := by
  induction l generalizing m with
  | nil =>
    cases h
    exact .nil _
  | cons s rest ih =>
    obtain ⟨⟨⟩, m₁, hfirst, hrest⟩ := run_bind_ok.1 h
    have hone := createDataset_created (hl s List.mem_cons_self) hfirst
    exact hone.append (ih (fun s' hs' => hl s' (List.mem_cons_of_mem s hs')) hrest)

/-! ## The registration as a whole -/

/-- The gates see to it that whatever there is of the application belongs to the owner that is
asked for. -/
theorem Admissible.owns_entity (h : d.Admissible m) {e : EntityId} (he : e ∈ d.entities)
    (hhas : m.Has e) : m.ownerOf e = d.owner := by
  rcases mem_entities.1 he with rfl | ⟨s, hs, rfl⟩
  · exact h.owned hhas
  · exact (h.datasets s hs).owned hhas

/-- All that is new is the application itself, or one of its datasets. -/
theorem Extends.mem_entities (h : d.Extends m m') {e : EntityId} (he : m'.Has e)
    (hnew : ¬ m.Has e) : e ∈ d.entities := by
  rw [Deployable.mem_entities]
  exact (h.new he hnew).imp_right fun ⟨s, hs, heq, _⟩ => ⟨s, hs, heq⟩

/-- A dataset that was created is the one that is declared under its name. -/
theorem Extends.created (h : d.Extends m m') (hformed : d.spec.verdict = .ok ())
    {s : DatasetSpec} (hs : s ∈ d.spec.datasets.values)
    (hthere : m'.Has (.dataset (d.id.dataset s.name))) :
    Keyed.find? (d.id.dataset s.name) m'.datasets =
      some ((Keyed.find? (d.id.dataset s.name) m.datasets).getD ⟨s.toInstance, d.owner⟩) := by
  rcases h.datasets (d.id.dataset s.name) with heq | ⟨hnone, s', hs', hid, hnew⟩
  · obtain ⟨x, hx⟩ := (m'.hasDataset_iff _).1 hthere
    rw [← heq, hx, Option.getD_some]
  · have hname : s'.name = s.name := (congrArg DatasetId.dataset hid).symm
    obtain rfl := dataset_unique hformed hs hs' hname
    rw [hnew, hnone, Option.getD_none]

/-- A registration that succeeds leaves the application as it is declared, if it was admissible. -/
theorem register_leaves {p : Deployed} (hadm : d.Admissible m) (h : d.register m = .ok p m') :
    d.Leaves m m' := by
  obtain ⟨-, m₁, hloop, rfl⟩ := register_eq_ok h
  have hcreated := forM_created (fun _ hs => hs) hloop
  have hadds := d.adds_application m₁
  have hx : d.Extends m (d.storing m₁) := hcreated.extending.trans hadds.taking_extends
  have happlications : (d.storing m₁).applications = Keyed.put d.id d.record m.applications := by
    rw [storing, applications_taking, hcreated.applications]
  have hhas : ∀ e ∈ d.entities, (d.storing m₁).Has e := by
    intro e he
    rcases mem_entities.1 he with rfl | ⟨s, hs, rfl⟩
    · exact (d.has_taking _ _ _).2 hadds.there
    · exact hadds.taking_extends.has (hcreated.there s hs)
  have hdatasets := fun s hs =>
    hx.created hadm.formed hs (hhas _ (mem_entities.2 (.inr ⟨s, hs, rfl⟩)))
  constructor
  · constructor
    · rw [happlications, Keyed.find?_put, if_pos rfl]
    · intro s hs
      refine ⟨_, hdatasets s hs, ?_⟩
      -- a dataset that existed has the declared type since the gates have compared the two
      cases hfind : Keyed.find? (d.id.dataset s.name) m.datasets with
      | none => rfl
      | some x => exact (hadm.datasets s hs).kind x hfind
    · intro o ho e he
      have howns : d.Owns m (d.storing m₁) := by
        have hsome : d.owner.isSome := by rw [ho, Option.isSome_some]
        exact (hcreated.owned hsome).trans (hadds.taking_owns (.inl hsome)) hadds.taking_extends
      rw [← ho]
      by_cases hold : m.Has e
      · rcases hx.owners e with heq | ⟨howner, -⟩
        · rw [heq, hadm.owns_entity he hold]
        · exact howner
      · exact howns e (hhas e he) hold
  · exact hdatasets
  · intro hnone
    rw [storing, taking_of_unowned hnone]
    exact hcreated.unowned hnone
  · intro id hid
    rw [happlications, Keyed.find?_put, if_neg (Ne.symm hid)]
  · intro id hid
    rcases hx.datasets id with heq | ⟨-, s, hs, rfl, -⟩
    · exact heq
    · exact absurd (mem_entities.2 (.inr ⟨s, hs, rfl⟩)) hid
  · intro e he
    rcases hx.owners e with heq | ⟨-, hthere, rfl | hnew⟩
    · exact heq
    · exact absurd (mem_entities.2 (.inl rfl)) he
    · exact absurd (hx.mem_entities hthere hnew) he

/-! ## Registrations that change nothing -/

/-- Who takes what they own already changes nothing. -/
theorem taking_of_owned {e : EntityId} (h : ∀ o, d.owner = some o → m.ownerOf e = some o) :
    d.taking e m = m := by
  cases ho : d.owner with
  | none => exact taking_of_unowned ho e m
  | some o => simp only [taking, ho, Keyed.put_of_find? (h o ho)]

/-- What is deployed as it is declared can be registered once more, and nothing changes. -/
theorem Stands.register (h : d.Stands m) (hdown : m.down = []) :
    d.register m = .ok d.deployed m := by
  -- Each of the four steps finds its work done and leaves the state as it is.
  have hdatasets : d.spec.datasets.values.forM d.createDataset m = .ok () m := by
    refine run_forM_of_unchanged fun s hs => ?_
    obtain ⟨x, hfind, -⟩ := h.datasets s hs
    have hhas : m.hasDataset (d.id.dataset s.name) := (m.hasDataset_iff _).2 ⟨x, hfind⟩
    rw [createDataset_run, if_neg (by simp [hdown]), if_pos hhas]
  have hprevious : Metadata.application d.id m = .ok (some d.record) m := by
    rw [Metadata.application, Metadata.reads_run, if_neg (by simp [hdown]), h.stored]
  have hstored : Metadata.addApplication d.record m = .ok () m := by
    rw [Metadata.addApplication_run, if_neg (by simp [hdown])]
    show EStateM.Result.ok () { m with applications := Keyed.put d.id d.record m.applications } = _
    rw [Keyed.put_of_find? h.stored]
  have howned : d.own (.application d.id.ref) m = .ok () m := by
    rw [own_of_available d _ hdown]
    rw [taking_of_owned fun o ho => h.owned o ho _ (mem_entities.2 (.inl rfl))]
  rw [record] at hstored
  simp only [Deployable.register, run_bind, hdatasets, hprevious, hstored, howned, run_pure]
  rfl

end Deployable

/-! ## Deployments -/

/-- **A deployment that succeeds deploys what its descriptor declares**, whatever there was: the
version is stored under its identity, every declared dataset exists with its type, all of that
belongs to the owner that is asked for, and the rest is as it was. What it tells of the programs is
the names of the three maps, one map after the other, each in the order of its names, which do not
come twice. -/
theorem deploys_what_is_declared {job : DeployJob} {t : FileTree} {m m' : Metadata} {p : Deployed}
    (succeeds : job.run t m = .ok p m') :
    ∃ spec, readArchive t job.archive = .ok spec ∧ (job.deployable spec).Leaves m m' ∧
      p = { id := ⟨job.account.name, spec.name, spec.version⟩
            spec := spec
            archive := job.archive
            programs :=
              spec.mapReduce.entries.map (fun e => (e.2.kind, e.1)) ++
                spec.spark.entries.map (fun e => (e.2.kind, e.1)) ++
                spec.workflows.keys.map (.workflow, ·) } ∧
      (∀ names ∈ [spec.mapReduce.keys, spec.spark.keys, spec.workflows.keys],
        names.Pairwise (· < ·)) := by
  obtain ⟨d, m₁, hload, ⟨looks, rfl⟩, hadm, hregister⟩ := DeployJob.run_eq_ok succeeds
  obtain ⟨spec, hread, rfl⟩ := DeployJob.load_eq_ok hload
  -- the gates have noted looks at datasets, which nothing else depends on
  have hadm' : (job.deployable spec).Admissible { m with lookups := m.lookups ++ looks } :=
    ((job.deployable spec).passGates_decides.stable ⟨looks, rfl⟩ (a := ())).2 hadm
  have hleaves := Deployable.register_leaves hadm' hregister
  refine ⟨spec, hread, { hleaves with }, ?_, ?_⟩
  · rw [(Deployable.register_eq_ok hregister).1, Deployable.deployed, Deployable.programList_eq]
    rfl
  · have hsorted : ∀ {α : Type} (t : NameMap α), t.keys.Pairwise (· < ·) :=
      fun t => List.pairwise_map.2 t.sorted
    intro names hnames
    simp only [List.mem_cons, List.not_mem_nil, or_false] at hnames
    rcases hnames with rfl | rfl | rfl <;> exact hsorted _

open Sample in
/-- A declared dataset that did not exist is there, for the owner that is asked for. -/
theorem owning_deploys_dataset :
    let a := owning []
    let id : DatasetId := ⟨"ns", "d"⟩
    ∃ p m', a.job.run a.files .empty = .ok p m' ∧
      (Keyed.find? id m'.datasets).map (·.spec.kind) = some "t" ∧
      m'.ownerOf (.dataset id) = some ⟨"alice@R"⟩ := by
  intro a id
  obtain ⟨p, m', hrun⟩ : a.Succeeds .empty := by decide +kernel
  obtain ⟨spec, hread, hleaves, -⟩ := deploys_what_is_declared hrun
  have hdatasets : (readArchive ownedFiles "app.json").toOption.map (·.datasets.values) =
      some [⟨"d", "t", .empty⟩] := by
    decide +kernel
  rw [show readArchive ownedFiles "app.json" = _ from hread] at hdatasets
  have hdeclared : (⟨"d", "t", .empty⟩ : DatasetSpec) ∈ spec.datasets.values := by
    rw [show spec.datasets.values = _ from Option.some.inj hdatasets]
    exact List.mem_singleton_self _
  refine ⟨p, m', hrun, ?_, ?_⟩
  · obtain ⟨x, hfind, hkind⟩ := hleaves.stands.datasets _ hdeclared
    rw [show Keyed.find? id m'.datasets = _ from hfind]
    exact congrArg some hkind
  · exact hleaves.stands.owned _ rfl _ (Deployable.mem_entities.2 (.inr ⟨_, hdeclared, rfl⟩))

/-! ## Once more -/

/-- **The same deployment, made at once once more, changes nothing** and tells the same, however
deployments went before: only its looks at datasets are noted. Nothing but the archive and the
available requests matters for that. -/
theorem deploys_again_unchanged {m : Metadata} (bare : m.Bare) (as : List Attempt)
    {job : DeployJob} {t t' : FileTree} {down : List Metadata.Request} {p : Deployed}
    {m' : Metadata} (succeeds : job.run t ((m.afterAll as).lacking down) = .ok p m')
    (same : t'.read job.archive = t.read job.archive) :
    ∃ looks, job.run t' (m'.lacking []) =
      .ok p { m' with lookups := m'.lookups ++ looks, down := [] } := by
  have htidy : ((m.afterAll as).lacking down).Tidy :=
    (Metadata.afterAll_induct bare.tidy (fun _ a h => h.after a) as).lacking down
  obtain ⟨d, m₁, hload, hlooked, hadm, hregister⟩ := DeployJob.run_eq_ok succeeds
  have hadm₁ : d.Admissible m₁ := (d.passGates_decides.stable hlooked (a := ())).2 hadm
  have hext : d.Extends m₁ m' := by
    have := d.register_registers.extending m₁
    rwa [finalState_of_ok hregister] at this
  -- Had the first run left something without its owner, it would not have succeeded.
  have howns : d.Owns m₁ m' := by
    have := d.register_registers.owning m₁ ((hlooked.extends d).tidy htidy)
    rw [finalState_of_ok hregister, hregister] at this
    exact this fun _ h => nomatch h
  have hagain : d.Admissible (m'.lacking []) := ((hadm₁.again_iff hext).2 howns).lacking []
  obtain ⟨m₂, ⟨looks, hlooks⟩, hverified⟩ := Deployable.verify_of_admissible hagain rfl
  -- The gates only look, so what the first run left still stands when the second registers.
  have hstands : d.Stands m₂ := by
    rw [hlooks]
    exact { (Deployable.register_leaves hadm₁ hregister).stands with }
  have hstored := hstands.register (by rw [hlooks]; rfl)
  refine ⟨looks, ?_⟩
  rw [DeployJob.run_of_load ((DeployJob.load_congr same).trans hload), run_bind, hverified]
  simp only [Deployable.store_run, hstored]
  rw [(Deployable.register_eq_ok hregister).1, hlooks]
  rfl

open Sample in
/-- A deployment that succeeds after one that did not, made once more. -/
theorem owning_deploys_again :
    let a := owning []
    let before := Metadata.empty.afterAll [owning [.addApplication]]
    ∃ p m' looks, a.job.run a.files (before.lacking []) = .ok p m' ∧
      a.job.run a.files (m'.lacking []) =
        .ok p { m' with lookups := m'.lookups ++ looks, down := [] } := by
  intro a before
  obtain ⟨p, m', hrun⟩ : a.Succeeds before := by decide +kernel
  obtain ⟨looks, hagain⟩ :=
    deploys_again_unchanged ⟨rfl, rfl, rfl⟩ [owning [.addApplication]] hrun rfl
  exact ⟨p, m', looks, hrun, hagain⟩

end Deployment
