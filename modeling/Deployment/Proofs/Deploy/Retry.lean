import Deployment.Proofs.Deploy.Ownership

/-! # Deployments that are tried again

A registration is not undone when one of its requests is unavailable, and the gates of the next
deployment see what it left. They refuse that exactly where it has an owner other than the one that
is asked for, and that it has only where the owner could not be set.

* **`Attempt.Succeeds`** — an attempt that deploys its application.
* **`Metadata.Bare`** — metadata of which nothing was deployed.
* **`Attempt.succeeds_iff`** — which attempts succeed where every request is available.
* **`Deployable.Admissible.again_iff`** — what may be registered once more.
* **`Attempt.refused_for_owner`** — and only an owner can refuse it.
* **`tried_again_iff`** — which attempts succeed when they are tried again. -/

namespace Deployment

open Stateful

/-! ## Attempts that succeed -/

/-- The attempt deploys its application. -/
def Attempt.Succeeds (a : Attempt) (m : Metadata) : Prop :=
  ∃ p m', a.job.run a.files (m.lacking a.down) = .ok p m'

/-- The fault of an attempt that does not succeed. -/
def Attempt.fault? (a : Attempt) (m : Metadata) : Option DeployFault :=
  match a.job.run a.files (m.lacking a.down) with
  | .ok _ _ => none
  | .error f _ => some f

/-- An attempt succeeds exactly if it has no fault. -/
theorem Attempt.succeeds_iff_fault? (a : Attempt) (m : Metadata) :
    a.Succeeds m ↔ a.fault? m = none := by
  rw [Succeeds, fault?]
  cases a.job.run a.files (m.lacking a.down) <;> simp

/-- An attempt can be made to see whether it succeeds. -/
instance (a : Attempt) (m : Metadata) : Decidable (a.Succeeds m) :=
  decidable_of_iff _ (a.succeeds_iff_fault? m).symm

/-! ## What may be registered once more -/

namespace Deployable

variable {d : Deployable} {m m' : Metadata}

/-- The declared datasets of an application that is well formed differ by their names. -/
theorem dataset_unique (h : d.spec.verdict = .ok ()) {s s' : DatasetSpec}
    (hs : s ∈ d.spec.datasets.values) (hs' : s' ∈ d.spec.datasets.values)
    (hname : s'.name = s.name) : s' = s := by
  obtain ⟨e, he, rfl⟩ := List.mem_map.1 hs
  obtain ⟨e', he', rfl⟩ := List.mem_map.1 hs'
  obtain ⟨-, -, -, hkeys⟩ := ApplicationSpec.verdict_ok.1 h
  have hkey : e'.1 = e.1 := by rw [hkeys e he, hkeys e' he', hname]
  rw [NameMap.entry_unique he' he hkey]

/-- Which requests are available has nothing to do with what may be registered. -/
theorem Admissible.lacking (h : d.Admissible m) (down : List Metadata.Request) :
    d.Admissible (m.lacking down) where
  owner := h.owner
  owned := h.owned
  formed := h.formed
  datasets s hs :=
    have hs := h.datasets s hs
    ⟨hs.formed, hs.shown, hs.kind, hs.owned⟩
  programs := h.programs
  workflows := h.workflows
  schedules := h.schedules

/-- Neither way has it to do with which requests are available. -/
@[simp] theorem admissible_lacking {down : List Metadata.Request} :
    d.Admissible (m.lacking down) ↔ d.Admissible m :=
  ⟨fun h => h.lacking m.down, fun h => h.lacking down⟩

/-- What had the owner that is asked for keeps it. -/
theorem Extends.keepsOwner (hx : d.Extends m m') {e : EntityId} (howner : m.ownerOf e = d.owner) :
    m'.ownerOf e = d.owner := by
  rcases hx.owners e with heq | ⟨hset, -⟩
  · rw [heq, howner]
  · exact hset

/-- A declared dataset that could be registered may still be looked at, and has the declared type
if it exists; only its owner may be another. -/
theorem Admissible.accepts_but_owner (h : d.Admissible m) (hx : d.Extends m m') {s : DatasetSpec}
    (hs : s ∈ d.spec.datasets.values) :
    m'.MayLook (m'.actor d.scope d.owner d.requester) ∧
      ∀ x, Keyed.find? (d.id.dataset s.name) m'.datasets = some x → x.spec.kind = s.kind := by
  have hold := h.datasets s hs
  refine ⟨?_, fun x hfind => ?_⟩
  · rw [hx.actor, Metadata.MayLook, hx.restrictedTo]
    exact hold.shown
  · rcases hx.datasets (d.id.dataset s.name) with heq | ⟨-, s', hs', hid, hnew⟩
    · exact hold.kind x (heq ▸ hfind)
    · -- the new dataset is the one that is declared under the name, with the declared type
      have hname : s'.name = s.name := (congrArg DatasetId.dataset hid).symm
      obtain rfl := dataset_unique h.formed hs hs' hname
      obtain rfl := Option.some.inj (hfind.symm.trans hnew)
      rfl

/-- What could be registered may be registered again exactly if all that is new since then belongs
to the owner that is asked for. -/
theorem Admissible.again_iff (h : d.Admissible m) (hx : d.Extends m m') :
    d.Admissible m' ↔ d.Owns m m' := by
  constructor
  · intro h' e he hnew
    -- all that can be new is what the gates of the second attempt look at
    rcases hx.new he hnew with rfl | ⟨s, hs, rfl, -⟩
    · exact h'.owned he
    · exact (h'.datasets s hs).owned he
  · intro howns
    have howned : ∀ e, (m.Has e → m.ownerOf e = d.owner) → m'.Has e → m'.ownerOf e = d.owner := by
      intro e hold he
      by_cases hthere : m.Has e
      · exact hx.keepsOwner (hold hthere)
      · exact howns e he hthere
    refine { h with owned := howned _ h.owned, datasets := fun s hs => ?_ }
    have hold := h.datasets s hs
    obtain ⟨shown, kind⟩ := h.accepts_but_owner hx hs
    exact ⟨hold.formed, shown, kind, howned _ hold.owned⟩

end Deployable

/-! ## What the gates refuse -/

namespace Gate

variable {α β : Type} {m : Metadata} {faults : VerificationFault → Prop}

/-- A check goes wrong on the metadata only with such faults. -/
def GoesWrong (x : Gate α) (m : Metadata) (faults : VerificationFault → Prop) : Prop :=
  ∀ ⦃g g' : Gatehouse⦄ ⦃f : VerificationFault⦄, m.Looked g.metadata → g.registry.Faithful →
    x g = .error f g' → faults f

namespace GoesWrong

/-- Giving a value goes wrong with no fault. -/
theorem pure (a : α) : GoesWrong (Pure.pure a) m faults := by
  intro g g' f _ _ h
  cases h

/-- A check that is passed goes wrong with no fault. -/
theorem of_gives {x : Gate α} {gives : Metadata → α → Prop} (hx : Yields x gives)
    (hdown : m.down = []) {a : α} (ha : gives m a) : GoesWrong x m faults := by
  intro g g' f hl hr h
  have hdown' : g.metadata.down = [] := hl.down_eq.trans hdown
  obtain ⟨g'', hok⟩ := hx.complete hr hdown' ((hx.stable hl).2 ha)
  cases hok.symm.trans h

/-- A check without a value that is passed goes wrong with no fault. -/
theorem of_holds {x : Gate Unit} {P : Metadata → Prop} (hx : Decides x P) (hdown : m.down = [])
    (h : P m) : GoesWrong x m faults := of_gives hx hdown (a := ()) h

/-- Two checks go wrong where one of them does, the second after what the first one gives. -/
theorem bind {x : Gate α} {next : α → Gate β} {gives : Metadata → α → Prop} (hx : Yields x gives)
    (first : GoesWrong x m faults) (second : ∀ a, gives m a → GoesWrong (next a) m faults) :
    GoesWrong (x >>= next) m faults := by
  intro g g' f hl hr h
  have hlooks := hx.looks g hr
  rw [run_bind] at h
  -- A fault is of the first step, or of the second in the state to which the first has looked.
  cases hrun : x g with
  | error f' g₁ =>
    simp only [hrun] at h
    cases h
    exact first hl hr hrun
  | ok a g₁ =>
    simp only [hrun] at h
    rw [finalState_of_ok hrun] at hlooks
    exact second a ((hx.stable hl).1 (hx.sound hr hrun)) (hl.trans hlooks.1) hlooks.2 h

/-- A check of every one of a list goes wrong where one of them does. -/
theorem forM {l : List α} {check : α → Gate Unit} {P : α → Metadata → Prop}
    (hcheck : ∀ a ∈ l, Decides (check a) (P a))
    (h : ∀ a ∈ l, GoesWrong (check a) m faults) : GoesWrong (l.forM check) m faults := by
  induction l with
  | nil => exact pure ()
  | cons a rest ih =>
    refine bind (hcheck a List.mem_cons_self) (h a List.mem_cons_self) fun _ _ => ih ?_ ?_
    · exact fun b hb => hcheck b (List.mem_cons_of_mem a hb)
    · exact fun b hb => h b (List.mem_cons_of_mem a hb)

/-- The gate of an owner refuses only an owner that is not the one asked for. -/
theorem verifyOwner {e : EntityId} {requested : Option Principal} (hdown : m.down = [])
    (h : m.ownerOf e ≠ requested → faults (.unauthorized ⟨e, m.ownerOf e, requested⟩)) :
    GoesWrong (verifyOwner e requested) m faults := by
  refine bind (owner_yields e) (of_gives (owner_yields e) hdown rfl) fun o ho => ?_
  subst ho
  split
  next hne =>
    intro g g' f _ _ hrun
    cases hrun
    exact h hne
  next => exact pure ()

end GoesWrong

end Gate

namespace Deployable

open Gate

variable {d : Deployable} {m m' : Metadata}

/-- What has an owner by a deployment: the application, and the datasets that it declares. -/
def entities (d : Deployable) : List EntityId :=
  .application d.id.ref :: d.spec.datasets.values.map fun s => .dataset (d.id.dataset s.name)

/-- An entity is the application itself, or a dataset that it declares. -/
theorem mem_entities {e : EntityId} : e ∈ d.entities ↔
    e = .application d.id.ref ∨
      ∃ s ∈ d.spec.datasets.values, e = .dataset (d.id.dataset s.name) := by
  simp [entities, eq_comm]

/-- What could be registered had the owner that is asked for, if it was there. -/
theorem Admissible.owner_of_mem (h : d.Admissible m) {e : EntityId} (he : e ∈ d.entities)
    (hthere : m.Has e) : m.ownerOf e = d.owner := by
  rcases mem_entities.1 he with rfl | ⟨s, hs, rfl⟩
  · exact h.owned hthere
  · exact (h.datasets s hs).owned hthere

/-- The fault is that an entity is there which does not have the owner that is asked for. -/
def Misowned (d : Deployable) (m : Metadata) (f : VerificationFault) : Prop :=
  ∃ e ∈ d.entities, m.Has e ∧ m.ownerOf e ≠ d.owner ∧
    f = .unauthorized ⟨e, m.ownerOf e, d.owner⟩

/-- An entity that is there without the owner is a reason for the fault that names it. -/
theorem misowned_of_ne {e : EntityId} (hmem : e ∈ d.entities) (he : m.Has e)
    (hne : m.ownerOf e ≠ d.owner) : d.Misowned m (.unauthorized ⟨e, m.ownerOf e, d.owner⟩) :=
  ⟨e, hmem, he, hne, rfl⟩

/-- Where all is available, the gate of a version refuses only an owner. -/
theorem versionGate_goesWrong (hdown : m.down = []) :
    GoesWrong d.versionGate m (d.Misowned m) := by
  refine .bind (versions_yields d.id.ref) (.of_gives (versions_yields d.id.ref) hdown rfl)
    fun ids hids => ?_
  split
  next hsome =>
    refine .verifyOwner hdown (misowned_of_ne (mem_entities.2 (.inl rfl))
      ((m.has_application_iff d.id.ref).2 ?_))
    intro hnone
    rw [hids, hnone, List.mergeSort_nil] at hsome
    exact absurd hsome (by decide)
  next => exact .pure ()

/-- The gate of a declared dataset that is well formed, may be looked at and has the declared type
refuses only its owner. -/
theorem datasetGate_goesWrong (hdown : m.down = []) {user : String} {s : DatasetSpec}
    (hs : s ∈ d.spec.datasets.values) (formed : s.verdict d.id = .ok ()) (shown : m.MayLook user)
    (kind : ∀ x, Keyed.find? (d.id.dataset s.name) m.datasets = some x → x.spec.kind = s.kind) :
    GoesWrong (d.datasetGate user s) m (d.Misowned m) := by
  have hverify := verify_decides d.id (.dataset s)
  have hlook := dataset_yields (d.id.dataset s.name) user
  refine .bind hverify (.of_holds hverify hdown formed) fun _ _ =>
    .bind hlook (.of_gives hlook hdown ⟨shown, rfl⟩) fun found hfound => ?_
  obtain ⟨-, rfl⟩ := hfound
  -- A dataset that is missing is fine; one that is there has the kind asked for, so only its owner
  -- can be wrong.
  cases hfind : Keyed.find? (d.id.dataset s.name) m.datasets with
  | none => exact .pure ()
  | some x =>
    have hkind : ¬ x.spec.kind ≠ s.kind := fun h => h (kind x hfind)
    simp only [Option.map_some, if_neg hkind]
    exact .verifyOwner hdown (misowned_of_ne (mem_entities.2 (.inr ⟨s, hs, rfl⟩))
      ((m.hasDataset_iff _).2 ⟨x, hfind⟩))

/-- What could be registered is refused afterwards only for an owner. -/
theorem Admissible.refused_for_owner (h : d.Admissible m) (hx : d.Extends m m')
    (hdown : m'.down = []) : GoesWrong d.passGates m' (d.Misowned m') := by
  have hspec := verify_decides d.id (.application d.spec)
  have hactor := authorizingUser_yields d.scope d.owner d.requester
  have hdatasets : ∀ user, ∀ s ∈ d.spec.datasets.values, Decides (d.datasetGate user s) _ :=
    fun user s _ => d.datasetGate_decides user s
  have hprograms : Decides (d.spec.programs.forM fun p => Gate.verify d.id (.program p.2)) _ :=
    Decides.forM fun p _ => verify_decides d.id (.program p.2)
  have hworkflows : Decides (d.spec.workflows.values.forM d.workflowGate) _ :=
    Decides.forM fun w _ => d.workflowGate_decides w
  have hschedules : Decides (d.spec.schedules.values.forM d.scheduleGate) _ :=
    Decides.forM fun s _ => d.scheduleGate_decides s
  -- only the gates of the version and of the datasets look at what was registered since
  refine .bind d.ownerGate_decides (.of_holds d.ownerGate_decides hdown h.owner) fun _ _ =>
    .bind d.versionGate_decides (versionGate_goesWrong hdown) fun _ _ =>
    .bind hspec (.of_holds hspec hdown h.formed) fun _ _ =>
    .bind hactor (.of_gives hactor hdown rfl) fun user huser =>
    .bind (Decides.forM (hdatasets user)) (.forM (hdatasets user) fun s hs => ?_) fun _ _ =>
    .bind hprograms (.of_holds hprograms hdown h.programs) fun _ _ =>
    .bind hworkflows (.of_holds hworkflows hdown h.workflows) fun _ _ =>
      .of_holds hschedules hdown h.schedules
  obtain ⟨shown, kind⟩ := h.accepts_but_owner hx hs
  subst huser
  exact datasetGate_goesWrong hdown hs (h.datasets s hs).formed shown kind

end Deployable

/-- Which requests are available has nothing to do with what was registered. -/
theorem Deployable.Extends.lacking {d : Deployable} {m m' : Metadata} (hx : d.Extends m m')
    (down : List Metadata.Request) : d.Extends (m.lacking down) (m'.lacking down) :=
  { hx with
    owners := fun e => by
      rw [Metadata.has_lacking, Metadata.has_lacking]
      exact hx.owners e
    down := rfl }

/-- Where every request is available, an attempt succeeds exactly if its application may be
registered. -/
theorem Attempt.succeeds_iff {job : DeployJob} {t : FileTree} {d : Deployable} {m : Metadata}
    (hload : job.load t = .ok d) : (⟨job, t, []⟩ : Attempt).Succeeds m ↔ d.Admissible m := by
  constructor
  · rintro ⟨p, m', hrun⟩
    obtain ⟨d', -, hload', -, hadm, -⟩ := DeployJob.run_eq_ok hrun
    obtain rfl := Except.ok.inj (hload.symm.trans hload')
    exact Deployable.admissible_lacking.1 hadm
  · intro hadm
    obtain ⟨m₁, hlooked, hverified⟩ := Deployable.verify_of_admissible (hadm.lacking []) rfl
    obtain ⟨p, m', hstored⟩ := d.register_registers.succeeding m₁ hlooked.down_eq
    refine ⟨p, m', ?_⟩
    rw [DeployJob.run_of_load hload, run_bind, hverified]
    simp only [Deployable.store_run, hstored]

/-- Where every request is available, an attempt at an application that could be registered before
can only be refused by the gate of an owner, for something that is new since then and belongs to
another than the owner that is asked for. -/
theorem Attempt.refused_for_owner {job : DeployJob} {t : FileTree} {d : Deployable}
    {m m' : Metadata} (hload : job.load t = .ok d) (h : d.Admissible m) (hx : d.Extends m m')
    (hnot : ¬ (⟨job, t, []⟩ : Attempt).Succeeds m') :
    ∃ e, m'.Has e ∧ ¬ m.Has e ∧ m'.ownerOf e ≠ d.owner ∧
      (⟨job, t, []⟩ : Attempt).fault? m' =
        some (.verification (.unauthorized ⟨e, m'.ownerOf e, d.owner⟩)) := by
  have hwrong : Gate.GoesWrong d.approve (m'.lacking []) (d.Misowned (m'.lacking [])) :=
    .bind d.passGates_decides ((h.lacking []).refused_for_owner (hx.lacking []) rfl)
      fun _ _ => .pure d
  have hempty := VerifierRegistry.faithful_empty
  cases hgates : d.approve ⟨m'.lacking [], .empty⟩ with
  -- Past the gates nothing can fail, and the attempt did.
  | ok d' g =>
    have hadm := (d.approve_yields.sound hempty hgates).2
    exact absurd ((Attempt.succeeds_iff hload).2 (Deployable.admissible_lacking.1 hadm)) hnot
  | error f g =>
    obtain ⟨e, hmem, hthere, hne, rfl⟩ := hwrong (.refl _) hempty hgates
    rw [Metadata.has_lacking] at hthere
    -- Had it been there before, its owner would have been the right one and have stayed.
    refine ⟨e, hthere, fun hold => hne ?_, hne, ?_⟩
    · exact hx.keepsOwner (h.owner_of_mem hmem hold)
    · simp only [Attempt.fault?, DeployJob.run_of_load hload, run_bind, Deployable.verify, hgates]
      rfl

/-! ## What an attempt leaves -/

namespace Metadata

variable {m m' : Metadata}

/-- Looks at datasets register nothing. -/
theorem Looked.extends (d : Deployable) (h : m.Looked m') : d.Extends m m' := by
  obtain ⟨looks, rfl⟩ := h
  exact { Deployable.Extends.refl m with }

/-- Nothing is new. -/
theorem Looked.owns (d : Deployable) (h : m.Looked m') : d.Owns m m' :=
  fun e he hnew => absurd ((has_of_looked h e).1 he) hnew

/-- What an attempt leaves whose application was loaded: a gate was not passed and nothing has
changed, or it is what the registration leaves. -/
theorem after_cases {a : Attempt} {d : Deployable} (hload : a.job.load a.files = .ok d) :
    (m.lacking a.down).Looked (m.after a) ∨
      ∃ m₁, (m.lacking a.down).Looked m₁ ∧ m.after a = finalState d.register m₁ ∧
        ∀ f m', d.register m₁ = .error f m' → a.fault? m = some (.registration f) := by
  have hcourse := a.job.course a.files (m.lacking a.down)
  rw [after, Attempt.fault?, finalState]
  generalize a.job.run a.files (m.lacking a.down) = result at hcourse
  cases hcourse with
  | unloaded f load =>
    rw [hload] at load
    cases load
  | refused d' f m' load looked => exact .inl looked
  | stored d' m₁ load looked admissible =>
    obtain rfl := Except.ok.inj (hload.symm.trans load)
    refine .inr ⟨m₁, looked, d.finalState_store m₁, fun f m' hfault => ?_⟩
    -- What is left is a fault of registering, and the attempt ends with it.
    rw [d.store_run, hfault]

/-- What an attempt leaves extends what it found. -/
theorem after_extends {a : Attempt} {d : Deployable} (hload : a.job.load a.files = .ok d) :
    d.Extends (m.lacking a.down) (m.after a) := by
  rcases after_cases (m := m) hload with hlooked | ⟨m₁, hlooked, hafter, -⟩
  · exact hlooked.extends d
  · rw [hafter]
    exact (hlooked.extends d).trans (d.register_registers.extending m₁)

/-- Nor has it to do with who owns what is not there. -/
theorem Tidy.lacking (h : m.Tidy) (down : List Request) : (m.lacking down).Tidy :=
  fun e hnot => h e fun he => hnot ((m.has_lacking down e).2 he)

/-- Nobody owns what is not there, after any attempt. -/
theorem Tidy.after (h : m.Tidy) (a : Attempt) : (m.after a).Tidy := by
  cases hload : a.job.load a.files with
  | ok d => exact (after_extends hload).tidy (h.lacking a.down)
  | error f =>
    have hrun : a.job.run a.files (m.lacking a.down) = .error f (m.lacking a.down) := by
      rw [DeployJob.run, hload]
      rfl
    rw [Metadata.after, finalState_of_error hrun]
    exact h.lacking a.down

/-- What is new after an attempt belongs to the owner that was asked for, unless the owner could
not be set. -/
theorem after_owns {a : Attempt} {d : Deployable} (ht : m.Tidy)
    (hload : a.job.load a.files = .ok d)
    (hfault : a.fault? m ≠ some (.registration (.unavailable Request.setOwner.name))) :
    d.Owns (m.lacking a.down) (m.after a) := by
  rcases after_cases (m := m) hload with hlooked | ⟨m₁, hlooked, hafter, hregister⟩
  · exact hlooked.owns d
  · have hext := hlooked.extends d
    have ht₁ := hext.tidy (ht.lacking a.down)
    rw [hafter]
    refine (hlooked.owns d).trans ?_ (d.register_registers.extending m₁)
    exact d.register_registers.owning m₁ ht₁ fun m' hset => hfault (hregister _ m' hset)

end Metadata

/-! ## Trying again -/

/-- Nothing was deployed, whoever acts for namespaces and whoever may look at datasets. -/
structure Metadata.Bare (m : Metadata) : Prop where
  applications : m.applications = []
  datasets : m.datasets = []
  owners : m.owners = []

/-- Where nothing was deployed, nobody owns anything. -/
theorem Metadata.Bare.tidy {m : Metadata} (h : m.Bare) : m.Tidy := by
  intro e _
  rw [ownerOf, h.owners]
  rfl

/-- An attempt whose application could have been deployed if every request were available can be
made again with all of them, from the same archive, exactly if all that is new since then belongs
to the owner that was asked for. That is so unless the owner could not be set; and if it is not so,
the gate of an owner refuses what is new and belongs to another. -/
theorem tried_again_iff {m : Metadata} (bare : m.Bare) (as : List Attempt) (job : DeployJob)
    (t t' : FileTree) (down : List Metadata.Request)
    (possible : (⟨job, t, []⟩ : Attempt).Succeeds (m.afterAll as))
    (same : t'.read job.archive = t.read job.archive) :
    let before := m.afterAll as
    let attempt : Attempt := ⟨job, t, down⟩
    let left := before.after attempt
    ((⟨job, t', []⟩ : Attempt).Succeeds left ↔
      ∀ e, left.Has e → ¬ before.Has e → left.ownerOf e = job.owner) ∧
    (attempt.fault? before ≠ some (.registration (.unavailable Metadata.Request.setOwner.name)) →
      (⟨job, t', []⟩ : Attempt).Succeeds left) ∧
    (¬ (⟨job, t', []⟩ : Attempt).Succeeds left →
      ∃ e, left.Has e ∧ ¬ before.Has e ∧ left.ownerOf e ≠ job.owner ∧
        (⟨job, t', []⟩ : Attempt).fault? left =
          some (.verification (.unauthorized ⟨e, left.ownerOf e, job.owner⟩))) := by
  intro before attempt left
  have htidy : before.Tidy := Metadata.afterAll_induct bare.tidy (fun _ a h => h.after a) as
  obtain ⟨d, hload⟩ : ∃ d, job.load t = .ok d := by
    cases hload : job.load t with
    | ok d => exact ⟨d, rfl⟩
    | error f =>
      obtain ⟨p, m', hrun⟩ := possible
      simp only [DeployJob.run, hload] at hrun
      cases hrun
  have hadm : d.Admissible before := (Attempt.succeeds_iff hload).1 possible
  have hload' : job.load t' = .ok d := (DeployJob.load_congr same).trans hload
  have hleft : d.Extends (before.lacking down) left := Metadata.after_extends (a := attempt) hload
  -- Nothing but the owners of what the first attempt left can stop the second.
  have hagain : (⟨job, t', []⟩ : Attempt).Succeeds left ↔ d.Owns (before.lacking down) left := by
    rw [Attempt.succeeds_iff hload']
    exact (hadm.lacking down).again_iff hleft
  refine ⟨hagain.trans ?_, fun hfault => hagain.2 ?_, fun hnot => ?_⟩
  · simp only [Deployable.Owns, Metadata.has_lacking, DeployJob.owner_of_load hload]
  · exact Metadata.after_owns (a := attempt) htidy hload hfault
  · obtain ⟨e, hthere, hnew, hne, hfault⟩ :=
      Attempt.refused_for_owner hload' (hadm.lacking down) hleft hnot
    rw [Metadata.has_lacking] at hnew
    rw [← DeployJob.owner_of_load hload]
    exact ⟨e, hthere, hnew, hne, hfault⟩

namespace Sample

/-- An archive of an application with one dataset. -/
def ownedFiles : FileTree :=
  finalState (Files.write "app.json" (Utf8.encode
    "\x7b\"name\":\"app\",\"datasets\":\x7b\"d\":\x7b\"instance_name\":\"d\",\"type_name\":\"t\"\x7d\x7d\x7d"))
    .empty

/-- Its deployment, for an owner, while some requests are unavailable. -/
def owning (down : List Metadata.Request) : Attempt :=
  ⟨⟨⟨"ns"⟩, "app.json", some ⟨"alice@R"⟩, "alice"⟩, ownedFiles, down⟩

end Sample

open Sample in
/-- A deployment that could not store the application after it had created the dataset succeeds
when it is tried again. -/
theorem half_registered_succeeds_again :
    ¬ (owning [.addApplication]).Succeeds .empty ∧
      (owning []).Succeeds (Metadata.empty.after (owning [.addApplication])) :=
  ⟨by decide +kernel, (tried_again_iff ⟨rfl, rfl, rfl⟩ [] (owning []).job ownedFiles ownedFiles
    [.addApplication] (by decide +kernel) rfl).2.1 (by decide +kernel)⟩

open Sample in
/-- A deployment that created the dataset but could not set its owner is refused when it is tried
again: the dataset has no owner, and the deployment asks for one. -/
theorem unowned_is_refused :
    (owning []).Succeeds .empty ∧ ¬ (owning [.setOwner]).Succeeds .empty ∧
      (owning []).fault? (Metadata.empty.after (owning [.setOwner])) =
        some (.verification (.unauthorized
          ⟨.dataset ⟨"ns", "d"⟩, none, some ⟨"alice@R"⟩⟩)) ∧
      ¬ (owning []).Succeeds (Metadata.empty.after (owning [.setOwner])) := by
  decide +kernel

end Deployment
