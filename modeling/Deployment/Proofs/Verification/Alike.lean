import Deployment.Proofs.Verification.Gates

/-! # Changes that go alike

Two changes that are made from states that have something in common go alike if they give the same
and leave states that have it in common still. The requests and the gates for an application go
alike wherever the same is known of its namespace: they look at nothing else.

* **`Alike`** — two changes go alike from related states, with a rule for each way to compose them.
* **`Metadata.Agrees`** — the same is known of a namespace.
* **`Metadata.InStep`** — that, and the same looks at datasets were added to what was noted before.
* **`Deployable.approve_alike`** — the gates go alike, and hand the application on as it is. -/

namespace Deployment

open Stateful

section
variable {ε σ α β γ δ : Type}

/-- Two results are alike: both are values, which are related, or both are the same fault; and the
states are related. -/
inductive AlikeResult (R : σ → σ → Prop) (V : α → β → Prop) :
    EStateM.Result ε σ α → EStateM.Result ε σ β → Prop
  | ok {a : α} {b : β} {s s' : σ} (value : V a b) (state : R s s') :
      AlikeResult R V (.ok a s) (.ok b s')
  | error (e : ε) {s s' : σ} (state : R s s') : AlikeResult R V (.error e s) (.error e s')

/-- Two changes go alike from related states. -/
def Alike (R : σ → σ → Prop) (V : α → β → Prop) (x : EStateM ε σ α) (y : EStateM ε σ β) : Prop :=
  ∀ s s', R s s' → AlikeResult R V (x s) (y s')

/-- A change goes the same from related states. -/
abbrev Steady (R : σ → σ → Prop) (x : EStateM ε σ α) : Prop := Alike R Eq x x

namespace Alike

variable {R : σ → σ → Prop} {V : α → β → Prop} {W : γ → δ → Prop}
  {x : EStateM ε σ α} {y : EStateM ε σ β}

/-- Values that correspond are given alike. -/
theorem pure {a : α} {b : β} (h : V a b) :
    Alike R V (Pure.pure a : EStateM ε σ α) (Pure.pure b) :=
  fun _ _ hs => .ok h hs

/-- A fault is given alike. -/
theorem throw (e : ε) : Alike R V (throw e : EStateM ε σ α) (throw e) :=
  fun _ _ hs => .error e hs

/-- Computations that go alike do so one after the other, as far as what the first ones give
corresponds. -/
theorem bind {f : α → EStateM ε σ γ} {g : β → EStateM ε σ δ} (h : Alike R V x y)
    (hf : ∀ a b, V a b → Alike R W (f a) (g b)) : Alike R W (x >>= f) (y >>= g) := by
  intro s s' hs
  have hfirst := h s s' hs
  rw [run_bind, run_bind]
  generalize x s = r, y s' = r' at hfirst
  cases hfirst with
  | ok value state => exact hf _ _ value _ _ state
  | error e state => exact .error e state

/-- Two checks under the same condition. -/
theorem ite {c : Prop} [Decidable c] {x' : EStateM ε σ α} {y' : EStateM ε σ β}
    (h : Alike R V x y) (h' : Alike R V x' y') :
    Alike R V (if c then x else x') (if c then y else y') := by
  split
  · exact h
  · exact h'

/-- A step for every one of a list. -/
theorem forM {l : List γ} {f g : γ → EStateM ε σ PUnit} (hf : ∀ a ∈ l, Alike R Eq (f a) (g a)) :
    Alike R Eq (l.forM f) (l.forM g) := by
  induction l with
  | nil => exact pure rfl
  | cons a rest ih =>
    have hrest := ih fun b hb => hf b (List.mem_cons_of_mem a hb)
    show Alike R Eq (f a >>= fun _ => rest.forM f) (g a >>= fun _ => rest.forM g)
    exact bind (hf a List.mem_cons_self) fun _ _ _ => hrest

end Alike

namespace Steady

variable {R : σ → σ → Prop} {x : EStateM ε σ α}

/-- Giving a value is steady. -/
theorem pure (a : α) : Steady R (Pure.pure a : EStateM ε σ α) := Alike.pure rfl

/-- Steady computations are steady one after the other. -/
theorem bind {f : α → EStateM ε σ β} (hx : Steady R x) (hf : ∀ a, Steady R (f a)) :
    Steady R (x >>= f) :=
  Alike.bind hx fun a _ hab => hab ▸ hf a

/-- What is steady for each of a list is steady for all of them. -/
theorem forM {l : List α} {f : α → EStateM ε σ PUnit} (hf : ∀ a ∈ l, Steady R (f a)) :
    Steady R (l.forM f) := Alike.forM hf

/-- What must not be is a fault. -/
theorem refuse {c : Prop} [Decidable c] (e : ε) :
    Steady R (if c then throw e else Pure.pure () : EStateM ε σ Unit) :=
  Alike.ite (Alike.throw e) (pure ())

/-- What must not be is a fault; where it is not, one goes on. -/
theorem refuseFirst {c : Prop} [Decidable c] (e : ε) {y : EStateM ε σ α} (hy : Steady R y) :
    Steady R (if c then throw e >>= fun (_ : Unit) => y else y) :=
  Alike.ite (bind (Alike.throw e) fun _ => hy) hy

end Steady

/-- From related states a steady change gives the same. -/
theorem Steady.answer_eq {R : σ → σ → Prop} {x : EStateM ε σ α} (hx : Steady R x) {s s' : σ}
    (hs : R s s') : answer x s' = answer x s ∧ R (finalState x s) (finalState x s') := by
  have h := hx s s' hs
  simp only [answer, finalState]
  generalize x s = r, x s' = r' at h
  cases h with
  | ok value state => exact ⟨by rw [value], state⟩
  | error e state => exact ⟨rfl, state⟩

end

/-! ## Namespaces -/

namespace Metadata

/-- The same is known of a namespace: the versions that are stored in it, its datasets, the owners
of both, and who acts for it. The same may be looked at, and the same requests are unavailable. -/
structure Agrees (scope : String) (m m' : Metadata) : Prop where
  applications : ∀ id : ApplicationId, id.scope = scope →
    Keyed.find? id m'.applications = Keyed.find? id m.applications
  datasets : ∀ id : DatasetId, id.scope = scope →
    Keyed.find? id m'.datasets = Keyed.find? id m.datasets
  owners : ∀ e : EntityId, e.scope = scope → m'.ownerOf e = m.ownerOf e
  impersonation : Keyed.find? scope m'.impersonation = Keyed.find? scope m.impersonation
  restrictedTo : m'.restrictedTo = m.restrictedTo
  down : m'.down = m.down

namespace Agrees

variable {scope : String} {m m' m'' : Metadata}

/-- Metadata agrees with itself. -/
@[refl] theorem refl (scope : String) (m : Metadata) : m.Agrees scope m :=
  ⟨fun _ _ => rfl, fun _ _ => rfl, fun _ _ => rfl, rfl, rfl, rfl⟩

/-- Metadata agrees either way. -/
theorem symm (h : m.Agrees scope m') : m'.Agrees scope m where
  applications id hid := (h.applications id hid).symm
  datasets id hid := (h.datasets id hid).symm
  owners e he := (h.owners e he).symm
  impersonation := h.impersonation.symm
  restrictedTo := h.restrictedTo.symm
  down := h.down.symm

/-- Metadata that agrees with the same agrees. -/
theorem trans (h : m.Agrees scope m') (h' : m'.Agrees scope m'') : m.Agrees scope m'' where
  applications id hid := (h'.applications id hid).trans (h.applications id hid)
  datasets id hid := (h'.datasets id hid).trans (h.datasets id hid)
  owners e he := (h'.owners e he).trans (h.owners e he)
  impersonation := h'.impersonation.trans h.impersonation
  restrictedTo := h'.restrictedTo.trans h.restrictedTo
  down := h'.down.trans h.down

/-- What is there in the namespace is there. -/
theorem has (h : m.Agrees scope m') {e : EntityId} (he : e.scope = scope) : m'.Has e ↔ m.Has e := by
  cases e with
  | application ref =>
    -- An application is there if a version of it is, and all its versions are of the same
    -- namespace.
    have hid : ∀ id : ApplicationId, id.ref = ref →
        Keyed.contains id m'.applications = Keyed.contains id m.applications := by
      rintro id rfl
      rw [Keyed.contains, Keyed.contains, h.applications id he]
    constructor
    · rintro ⟨id, href, hin⟩
      exact ⟨id, href, hid id href ▸ hin⟩
    · rintro ⟨id, href, hin⟩
      exact ⟨id, href, (hid id href).symm ▸ hin⟩
  | dataset id =>
    show Keyed.contains id m'.datasets = true ↔ Keyed.contains id m.datasets = true
    rw [Keyed.contains, Keyed.contains, h.datasets id he]

/-- Looks at datasets are not part of what is known of a namespace. -/
theorem of_looked (h : m.Looked m') (scope : String) : m.Agrees scope m' := by
  obtain ⟨looks, rfl⟩ := h
  exact ⟨fun _ _ => rfl, fun _ _ => rfl, fun _ _ => rfl, rfl, rfl, rfl⟩

end Agrees

/-- The same is known of a namespace, and the same looks at datasets were added to those that had
been noted. -/
structure InStep (scope : String) (noted noted' : List Lookup) (m m' : Metadata) : Prop where
  agrees : m.Agrees scope m'
  looks : ∃ looks, m.lookups = noted ++ looks ∧ m'.lookups = noted' ++ looks

/-- Metadata that agrees is in step, with the looks that are noted in each. -/
theorem Agrees.inStep {scope : String} {m m' : Metadata} (h : m.Agrees scope m') :
    InStep scope m.lookups m'.lookups m m' :=
  ⟨h, [], (List.append_nil _).symm, (List.append_nil _).symm⟩

section
variable {scope : String} {noted noted' : List Lookup} {α : Type}

/-- A request that only reads goes alike where it reads alike. -/
theorem reads_alike (q : Request) {read : Metadata → α} {V : α → α → Prop}
    (hread : ∀ {m m'}, InStep scope noted noted' m m' → V (read m) (read m')) :
    Alike (InStep scope noted noted') V (do available q; return read (← get) : Change α)
      (do available q; return read (← get)) := by
  intro m m' h
  rw [reads_run, reads_run, h.agrees.down]
  by_cases hdown : m.down.contains q
  · rw [if_pos hdown, if_pos hdown]
    exact .error _ h
  · rw [if_neg hdown, if_neg hdown]
    exact .ok (hread h) h

/-- An application has versions in both or in none. -/
theorem versions_alike {ref : ApplicationRef} (href : ref.scope = scope) :
    Alike (InStep scope noted noted') (fun ids ids' => ids.isEmpty = ids'.isEmpty)
      (versions ref) (versions ref) := by
  refine reads_alike .versions fun {m m'} h => ?_
  have hempty : ∀ m : Metadata,
      (((m.applications.map (·.1)).filter fun id => id.ref = ref).mergeSort
        fun a b => a.version ≤ b.version).isEmpty = true ↔ ¬ m.Has (.application ref) := by
    intro m
    rw [has_application_iff, Decidable.not_not, List.isEmpty_iff, ← List.length_eq_zero_iff,
      List.length_mergeSort, List.length_eq_zero_iff]
  rw [Bool.eq_iff_iff, hempty m, hempty m', h.agrees.has (e := .application ref) href]

/-- A version in the namespace is looked for alike. -/
theorem application_steady {id : ApplicationId} (hid : id.scope = scope) :
    Steady (InStep scope noted noted') (application id) :=
  reads_alike .application fun h => (h.agrees.applications id hid).symm

/-- An owner in the namespace is looked for alike. -/
theorem owner_steady {e : EntityId} (he : e.scope = scope) :
    Steady (InStep scope noted noted') (owner e) :=
  reads_alike .owner fun h => (h.agrees.owners e he).symm

/-- Who acts for the namespace is looked for alike. -/
theorem impersonation_steady :
    Steady (InStep scope noted noted') (impersonationPrincipal scope) :=
  reads_alike .impersonation fun h => h.agrees.impersonation.symm

/-- A look at a dataset of the namespace is noted in both or in none. -/
theorem dataset_steady {id : DatasetId} (hid : id.scope = scope) (user : String) :
    Steady (InStep scope noted noted') (dataset id user) := by
  intro m m' h
  have hlook : InStep scope noted noted' { m with lookups := m.lookups ++ [⟨id, user⟩] }
      { m' with lookups := m'.lookups ++ [⟨id, user⟩] } := by
    obtain ⟨looks, hm, hm'⟩ := h.looks
    refine ⟨((Agrees.of_looked ⟨_, rfl⟩ scope).symm.trans h.agrees).trans
      (.of_looked ⟨_, rfl⟩ scope),
      looks ++ [⟨id, user⟩], ?_, ?_⟩
    · rw [hm, List.append_assoc]
    · rw [hm', List.append_assoc]
  have hdown' : m'.down.contains Request.dataset = m.down.contains .dataset := by
    rw [h.agrees.down]
  have hmay' : m'.restrictedTo.any (· ≠ user) = m.restrictedTo.any (· ≠ user) := by
    rw [h.agrees.restrictedTo]
  rw [dataset_run, dataset_run, hdown', h.agrees.datasets id hid]
  by_cases hdown : m.down.contains .dataset
  · rw [if_pos hdown, if_pos hdown]
    exact .error _ h
  · simp only [if_neg hdown, hmay']
    by_cases hmay : m.restrictedTo.any (· ≠ user)
    · simp only [if_pos hmay]
      exact .error _ hlook
    · simp only [if_neg hmay]
      exact .ok rfl hlook

end

end Metadata

/-! ## Gates -/

/-- What gates work with is in step, with the same verifiers at hand. -/
structure Gatehouse.InStep (scope : String) (noted noted' : List Lookup) (g g' : Gatehouse) :
    Prop where
  metadata : Metadata.InStep scope noted noted' g.metadata g'.metadata
  registry : g'.registry = g.registry

namespace Gate

variable {scope : String} {noted noted' : List Lookup} {α β : Type}

/-- Requests that go alike are asked alike. -/
theorem ask_alike {x : Metadata.Change α} {y : Metadata.Change β} {V : α → β → Prop}
    (h : Alike (Metadata.InStep scope noted noted') V x y) :
    Alike (Gatehouse.InStep scope noted noted') V (ask x) (ask y) := by
  intro g g' hg
  have hr := h _ _ hg.metadata
  simp only [ask]
  generalize x g.metadata = r, y g'.metadata = r' at hr
  cases hr with
  | ok value state => exact .ok value ⟨state, hg.registry⟩
  | error f state => exact .error _ ⟨state, hg.registry⟩

/-- A part is checked alike: the registry has nothing to do with the metadata. -/
theorem verify_steady (app : ApplicationId) (s : Subject) :
    Steady (Gatehouse.InStep scope noted noted') (Gate.verify app s) := by
  intro g g' hg
  simp only [Gate.verify, hg.registry]
  generalize (VerifierRegistry.verify app s).run g.registry = found
  obtain ⟨verdict, registry⟩ := found
  cases verdict with
  | ok _ => exact .ok rfl ⟨hg.metadata, rfl⟩
  | error f => exact .error _ ⟨hg.metadata, rfl⟩

/-- The identity that looks at datasets is found alike. -/
theorem authorizingUser_steady (owner : Option Principal) (requester : String) :
    Steady (Gatehouse.InStep scope noted noted') (authorizingUser scope owner requester) := by
  cases owner with
  | some o => exact Steady.pure o.name
  | none =>
    refine Steady.bind (ask_alike Metadata.impersonation_steady) fun p => ?_
    cases p with
    | some p => exact Steady.pure p.name
    | none => exact Steady.pure requester

/-- An owner in the namespace is checked alike. -/
theorem verifyOwner_steady {e : EntityId} (he : e.scope = scope) (requested : Option Principal) :
    Steady (Gatehouse.InStep scope noted noted') (verifyOwner e requested) :=
  Steady.bind (ask_alike (Metadata.owner_steady he)) fun _ => Steady.refuse _

end Gate

namespace Deployable

open Gate

variable (d : Deployable) {noted noted' : List Lookup}

/-- The gate of the owner asks nothing. -/
theorem ownerGate_steady {R : Gatehouse → Gatehouse → Prop} : Steady R d.ownerGate := by
  rw [ownerGate]
  cases d.owner with
  | none => exact Steady.pure ()
  | some o => exact Steady.refuse _

/-- The gate of the version decides alike. -/
theorem versionGate_steady : Steady (Gatehouse.InStep d.id.scope noted noted') d.versionGate := by
  refine Alike.bind (ask_alike (Metadata.versions_alike rfl)) fun ids ids' hids => ?_
  rw [hids]
  exact Alike.ite (verifyOwner_steady (e := .application d.id.ref) rfl d.owner) (Steady.pure ())

/-- The gate of a dataset decides alike. -/
theorem datasetGate_steady (user : String) (s : DatasetSpec) :
    Steady (Gatehouse.InStep d.id.scope noted noted') (d.datasetGate user s) := by
  have hid : (d.id.dataset s.name).scope = d.id.scope := rfl
  refine Steady.bind (verify_steady d.id (.dataset s)) fun _ =>
    Steady.bind (ask_alike (Metadata.dataset_steady hid user)) fun found => ?_
  cases found with
  | none => exact Steady.pure ()
  | some x => exact Steady.refuseFirst _ (verifyOwner_steady (e := .dataset _) hid d.owner)

/-- The gate of a workflow asks nothing. -/
theorem workflowGate_steady {R : Gatehouse → Gatehouse → Prop} (w : WorkflowSpec) :
    Steady R (d.workflowGate w) := by
  rw [workflowGate]
  cases d.spec.checkWorkflow w with
  | ok report => exact Steady.pure ()
  | error f => exact Alike.throw _

/-- The gates go alike wherever the same is known of the namespace. -/
theorem approve_alike : Alike (Gatehouse.InStep d.id.scope noted noted')
    (fun d₁ d₂ => d₁ = d ∧ d₂ = d) d.approve d.approve := by
  have hgates : Steady (Gatehouse.InStep d.id.scope noted noted') d.passGates :=
    d.ownerGate_steady.bind fun _ => d.versionGate_steady.bind fun _ =>
      (verify_steady d.id (.application d.spec)).bind fun _ =>
        (authorizingUser_steady d.owner d.requester).bind fun user =>
          (Steady.forM fun s _ => d.datasetGate_steady user s).bind fun _ =>
            (Steady.forM fun p _ => verify_steady d.id (.program p.2)).bind fun _ =>
              (Steady.forM fun w _ => d.workflowGate_steady w).bind fun _ =>
                Steady.forM fun s _ => Steady.refuse _
  exact Alike.bind hgates fun _ _ _ => Alike.pure ⟨rfl, rfl⟩

end Deployable

end Deployment
