import Deployment.Data.Stateful
import Deployment.Verification.Admission

/-! # Admitted applications

The gates change nothing that is deployed: they note looks at datasets and keep verifiers. Where
every request is available, an application passes them exactly if it is admissible.

* **`Metadata.Has`**, **`Metadata.ownerOf`** — what is deployed, and the owner of record.
* **`Metadata.Looked`** — metadata that differs by looks at datasets only.
* **`Gate.Yields`** — what a check gives: nothing else, and surely so where all is available.
* **`Deployable.Admissible`** — an application that may be registered.
* **`Deployable.passGates_decides`** — the gates admit the admissible applications.
* **`Deployable.approve_yields`** — and hand them on as they are. -/

namespace Deployment

open Stateful

/-! ## What is deployed -/

namespace Metadata

/-- An application has a version, or a dataset exists. -/
def Has (m : Metadata) : EntityId → Prop
  | .application ref => ∃ id : ApplicationId, id.ref = ref ∧ Keyed.contains id m.applications
  | .dataset id => m.hasDataset id

/-- The owner of record of an entity. -/
def ownerOf (m : Metadata) (e : EntityId) : Option Principal := Keyed.find? e m.owners

/-- Who looks at datasets for a deployment: the owner that is asked for, else who acts for the
namespace, else who asks. -/
def actor (m : Metadata) (scope : String) (owner : Option Principal) (requester : String) :
    String :=
  match owner with
  | some o => o.name
  | none => match Keyed.find? scope m.impersonation with
    | some p => p.name
    | none => requester

/-- Somebody may look at datasets. -/
def MayLook (m : Metadata) (user : String) : Prop := ∀ r, m.restrictedTo = some r → r = user

/-- Somebody may look exactly if looks are not restricted to somebody else. -/
theorem mayLook_iff (m : Metadata) (user : String) :
    m.MayLook user ↔ ¬ m.restrictedTo.any (· ≠ user) := by
  cases h : m.restrictedTo <;> simp [MayLook, h]

/-- The metadata is as before, with more looks at datasets noted. -/
def Looked (m m' : Metadata) : Prop := ∃ looks, m' = { m with lookups := m.lookups ++ looks }

/-- Without looks the metadata is as before. -/
@[refl] theorem Looked.refl (m : Metadata) : m.Looked m := ⟨[], by simp⟩

/-- A look makes no request unavailable, and none available. -/
theorem Looked.down_eq {m m' : Metadata} (h : m.Looked m') : m'.down = m.down := by
  obtain ⟨looks, rfl⟩ := h
  rfl

/-- Looks after looks are looks. -/
theorem Looked.trans {m m' m'' : Metadata} (h : m.Looked m') (h' : m'.Looked m'') :
    m.Looked m'' := by
  obtain ⟨looks, rfl⟩ := h
  obtain ⟨more, rfl⟩ := h'
  exact ⟨looks ++ more, by simp⟩

/-- A request is refused exactly if it is down, and changes nothing. -/
theorem available_run (q : Request) (m : Metadata) :
    available q m = if m.down.contains q then .error (.unavailable q.name) m else .ok () m := by
  simp only [available, run_bind, run_get, run_ite]
  rfl

/-- An application has a version exactly if the list of its versions is not empty. -/
theorem has_application_iff (m : Metadata) (ref : ApplicationRef) :
    m.Has (.application ref) ↔
      ((m.applications.map (·.1)).filter fun id => id.ref = ref) ≠ [] := by
  rw [ne_eq, List.filter_eq_nil_iff]
  constructor
  · rintro ⟨id, href, hid⟩ hnone
    exact hnone id (Keyed.contains_iff_mem.1 hid) (decide_eq_true href)
  · intro hsome
    apply Classical.byContradiction
    intro hnone
    refine hsome fun id hid href => hnone ⟨id, of_decide_eq_true href, ?_⟩
    exact Keyed.contains_iff_mem.2 hid

/-- A request that only reads. -/
theorem reads_run {α : Type} (q : Request) (read : Metadata → α) (m : Metadata) :
    (do available q; return read (← get) : Change α) m =
      if m.down.contains q then .error (.unavailable q.name) m else .ok (read m) m := by
  rw [run_bind, available_run]
  by_cases hdown : m.down.contains q
  · simp only [if_pos hdown]
  · simp only [if_neg hdown]
    rfl

/-- A look at a dataset is noted wherever looks are available, allowed or not. -/
theorem dataset_run (id : DatasetId) (user : String) (m : Metadata) :
    dataset id user m =
      if m.down.contains .dataset then .error (.unavailable Request.dataset.name) m
      else
        let m' := { m with lookups := m.lookups ++ [⟨id, user⟩] }
        if m.restrictedTo.any (· ≠ user) then .error (.unauthorized user (.dataset id)) m'
        else .ok ((Keyed.find? id m.datasets).map (·.spec)) m' := by
  rw [dataset, run_bind, available_run]
  by_cases hdown : m.down.contains .dataset
  · simp only [if_pos hdown]
  · simp only [if_neg hdown, run_bind, run_modify, run_get, run_ite, run_throw]
    split
    next => rfl
    next => rfl

end Metadata

/-! ## What verifiers find -/

namespace Verdict

/-- What is required is there exactly if it holds. -/
@[simp] theorem require_ok {c : Bool} {f : SpecFault} : require c f = .ok () ↔ c = true := by
  cases c <;> simp [require]

/-- Two verdicts are fine exactly if both are. -/
@[simp] theorem bind_ok {x y : Verdict} :
    (x >>= fun _ => y) = .ok () ↔ x = .ok () ∧ y = .ok () := by
  cases x with
  | ok _ => simp [Failing.ok_bind]
  | error f => simp [Failing.error_bind]

/-- The verdicts on a list are fine exactly if each is. -/
@[simp] theorem forM_ok {α : Type} {l : List α} {f : α → Verdict} :
    l.forM f = .ok () ↔ ∀ a ∈ l, f a = .ok () := by
  induction l with
  | nil => simp [Failing.pure_eq]
  | cons a rest ih =>
    show (f a >>= fun _ => rest.forM f) = .ok () ↔ _
    rw [bind_ok, ih, List.forall_mem_cons]

end Verdict

/-- Nothing is wrong with an application exactly if it has a name and a version and everything
stands under its own name. -/
theorem ApplicationSpec.verdict_ok {a : ApplicationSpec} :
    a.verdict = .ok () ↔ isIdentifier a.name ∧ a.version ≠ "" ∧
      (∀ p ∈ a.programs, p.1 = p.2.name) ∧ ∀ e ∈ a.datasets.entries, e.1 = e.2.name := by
  simp only [verdict, Verdict.bind_ok, Verdict.require_ok, Verdict.forM_ok, decide_eq_true_eq]
  have hname : isIdentifier a.name → (!a.name.isEmpty) = true := fun h =>
    (Bool.and_eq_true_iff.1 h).1
  have hversion : (!a.version.isEmpty) = true ↔ a.version ≠ "" := by
    rw [Bool.not_eq_true', ← Bool.not_eq_true, String.isEmpty_iff]
  rw [hversion]
  exact ⟨fun h => h.2, fun h => ⟨hname h.1, h⟩⟩

/-! ## The verifiers that are kept -/

/-- What the verifier for its kind finds in a part. -/
def Subject.verdict (s : Subject) (app : ApplicationId) : Verdict :=
  (Verifier.ofKind s.kind).verify app s

namespace VerifierRegistry

/-- The verifier that is kept for a kind is the one for the kind. -/
def Faithful (r : VerifierRegistry) : Prop :=
  ∀ kind v, Keyed.find? kind r.verifiers = some v → v = Verifier.ofKind kind

/-- A registry that keeps no verifier is faithful. -/
theorem faithful_empty : empty.Faithful := by
  intro kind v h
  cases h

/-- A registry that is faithful gives the verifier for the kind, and stays faithful. -/
theorem Faithful.get {r : VerifierRegistry} (h : r.Faithful) (kind : SpecKind) :
    ∃ r' : VerifierRegistry, r'.Faithful ∧
      (VerifierRegistry.get kind).run r = (Verifier.ofKind kind, r') := by
  cases hfind : Keyed.find? kind r.verifiers with
  | some v =>
    refine ⟨r, h, ?_⟩
    simp [VerifierRegistry.get, hfind, h _ _ hfind]
    rfl
  -- A verifier that is made on the way is the one the kind stands for, so the registry stays
  -- faithful.
  | none =>
    refine ⟨⟨Keyed.put kind (Verifier.ofKind kind) r.verifiers⟩, ?_, ?_⟩
    · intro kind' v hv
      rw [Keyed.find?_put] at hv
      split at hv
      next heq => rw [← Option.some.inj hv, heq]
      next => exact h kind' v hv
    · simp [VerifierRegistry.get, hfind]
      rfl

/-- It finds what the verifier for the kind finds. -/
theorem Faithful.verify {r : VerifierRegistry} (h : r.Faithful) (app : ApplicationId)
    (s : Subject) :
    ∃ r' : VerifierRegistry, r'.Faithful ∧
      (VerifierRegistry.verify app s).run r = (s.verdict app, r') := by
  obtain ⟨r', hr', hget⟩ := h.get s.kind
  refine ⟨r', hr', ?_⟩
  rw [VerifierRegistry.verify, StateT.run_bind, hget]
  rfl

end VerifierRegistry

/-! ## What checks give -/

namespace Gate

variable {α β : Type}

/-- A check only looks; what it gives is told by the metadata, and where every request is available
it gives that. -/
structure Yields (x : Gate α) (gives : Metadata → α → Prop) : Prop where
  /-- Looks at datasets do not matter. -/
  stable : ∀ {m m' : Metadata} {a : α}, m.Looked m' → (gives m' a ↔ gives m a)
  looks : ∀ g : Gatehouse, g.registry.Faithful →
    g.metadata.Looked (finalState x g).metadata ∧ (finalState x g).registry.Faithful
  sound : ∀ {g g' : Gatehouse} {a : α}, g.registry.Faithful → x g = .ok a g' → gives g.metadata a
  complete : ∀ {g : Gatehouse} {a : α}, g.registry.Faithful → g.metadata.down = [] →
    gives g.metadata a → ∃ g', x g = .ok a g'

/-- A check without a value is passed where something holds. -/
abbrev Decides (x : Gate Unit) (holds : Metadata → Prop) : Prop := Yields x fun m _ => holds m

namespace Yields

/-- What a check gives can be said in other words. -/
theorem congr {x : Gate α} {gives gives' : Metadata → α → Prop} (h : Yields x gives)
    (hiff : ∀ m a, gives m a ↔ gives' m a) : Yields x gives' := by
  have heq : gives = gives' := by
    funext m a
    exact propext (hiff m a)
  exact heq ▸ h

/-- A value that is given is all that a check gives. -/
theorem pure (a : α) : Yields (Pure.pure a) fun _ b => b = a where
  stable _ := Iff.rfl
  looks _ hr := ⟨.refl _, hr⟩
  sound _ h := by cases h; rfl
  complete {g _} _ _ h := ⟨g, h ▸ rfl⟩

/-- A fault gives nothing. -/
theorem throw (f : VerificationFault) : Yields (throw f : Gate α) fun _ _ => False where
  stable _ := Iff.rfl
  looks _ hr := ⟨.refl _, hr⟩
  sound _ h := by cases h
  complete _ _ h := h.elim

/-- What comes after a check gives what it gives for a value of the first. -/
theorem bind {x : Gate α} {f : α → Gate β} {gives : Metadata → α → Prop}
    {next : α → Metadata → β → Prop} (hx : Yields x gives) (hf : ∀ a, Yields (f a) (next a)) :
    Yields (x >>= f) fun m b => ∃ a, gives m a ∧ next a m b where
  stable hl := by simp only [hx.stable hl, (hf _).stable hl]
  looks g hr := by
    refine finalState_bind_induct
      (P := fun g' : Gatehouse => g.metadata.Looked g'.metadata ∧ g'.registry.Faithful)
      (hx.looks g hr) fun a g' _ hfirst => ?_
    obtain ⟨hl, hr'⟩ := (hf a).looks g' hfirst.2
    exact ⟨hfirst.1.trans hl, hr'⟩
  sound {g g'' b} hr h := by
    have hfirst := hx.looks g hr
    obtain ⟨a, g', hrun, h⟩ := run_bind_ok.1 h
    rw [finalState_of_ok hrun] at hfirst
    exact ⟨a, hx.sound hr hrun, ((hf a).stable hfirst.1).1 ((hf a).sound hfirst.2 h)⟩
  -- The first gate only looks, so what the second needs still holds when its turn comes.
  complete {g b} hr hdown := by
    rintro ⟨a, ha, hb⟩
    obtain ⟨g', hrun⟩ := hx.complete hr hdown ha
    have hfirst := hx.looks g hr
    rw [finalState_of_ok hrun] at hfirst
    have hdown' : g'.metadata.down = [] := hfirst.1.down_eq.trans hdown
    obtain ⟨g'', hrun'⟩ := (hf a).complete hfirst.2 hdown' (((hf a).stable hfirst.1).2 hb)
    refine ⟨g'', ?_⟩
    rw [run_bind, hrun]
    exact hrun'

end Yields

namespace Decides

variable {x y : Gate Unit} {P Q : Metadata → Prop}

/-- Two checks, one after the other, are passed where both are. -/
theorem bind (hx : Decides x P) (hy : Decides y Q) :
    Decides (x >>= fun _ => y) fun m => P m ∧ Q m :=
  (Yields.bind hx fun _ => hy).congr fun m _ => by simp

/-- A check of nothing is passed everywhere. -/
theorem pure : Decides (Pure.pure ()) fun _ => True :=
  (Yields.pure ()).congr fun _ _ => by simp

/-- A check that is made under a condition. -/
theorem ite {c : Prop} [Decidable c] (hx : Decides x P) (hy : Decides y Q) :
    Decides (if c then x else y) fun m => if c then P m else Q m := by
  split
  · exact hx
  · exact hy

/-- What must not be is a fault. -/
theorem refuse {c : Prop} [Decidable c] (f : VerificationFault) :
    Decides (if c then throw f else Pure.pure ()) fun _ => ¬ c :=
  (ite (Yields.throw f) pure).congr fun _ _ => by split <;> simp_all

/-- What must not be is a fault; where it is not, one goes on. -/
theorem refuseFirst {c : Prop} [Decidable c] (f : VerificationFault) (hy : Decides y P) :
    Decides (if c then throw f >>= fun (_ : Unit) => y else y) fun m => ¬ c ∧ P m := by
  refine (ite (Yields.bind (Yields.throw f) fun _ => hy) hy).congr fun m _ => ?_
  by_cases h : c <;> simp [h]

/-- A check of what there is, if there is anything. -/
theorem bindSome {α : Type} {x : Gate (Option α)} {check : Option α → Gate Unit}
    {gives : Metadata → Option α → Prop} {P : α → Metadata → Prop} (hx : Yields x gives)
    (hnone : check none = Pure.pure ()) (hsome : ∀ a, Decides (check (some a)) (P a)) :
    Decides (x >>= check) fun m => ∃ o, gives m o ∧ ∀ a, o = some a → P a m := by
  refine Yields.bind hx fun o => ?_
  cases o with
  | none => exact hnone ▸ pure.congr fun m _ => by simp
  | some a => exact (hsome a).congr fun m _ => by simp

/-- A check of every one of a list. -/
theorem forM {α : Type} {l : List α} {f : α → Gate Unit} {P : α → Metadata → Prop}
    (hf : ∀ a ∈ l, Decides (f a) (P a)) : Decides (l.forM f) fun m => ∀ a ∈ l, P a m := by
  induction l with
  | nil => exact pure.congr fun m _ => by simp
  | cons a rest ih =>
    have hrest := ih fun b hb => hf b (List.mem_cons_of_mem a hb)
    exact (bind (hf a List.mem_cons_self) hrest).congr fun m _ => by simp

end Decides

/-! ## The questions of the gates -/

/-- What a request gives is what the question gives. -/
theorem ask_yields {x : Metadata.Change α} {gives : Metadata → α → Prop}
    (stable : ∀ {m m' : Metadata} {a : α}, m.Looked m' → (gives m' a ↔ gives m a))
    (looks : ∀ m : Metadata, m.Looked (finalState x m))
    (sound : ∀ {m m' : Metadata} {a : α}, x m = .ok a m' → gives m a)
    (complete : ∀ {m : Metadata} {a : α}, m.down = [] → gives m a → ∃ m', x m = .ok a m') :
    Yields (ask x) gives where
  stable := stable
  looks g hr := by
    have hl := looks g.metadata
    simp only [finalState, ask] at hl ⊢
    cases hrun : x g.metadata <;> exact ⟨by simpa only [hrun] using hl, hr⟩
  sound {g g' a} _ h := by
    simp only [ask] at h
    cases hrun : x g.metadata with
    | ok b m =>
      simp only [hrun, EStateM.Result.ok.injEq] at h
      exact h.1 ▸ sound hrun
    | error f m => simp [hrun] at h
  complete {g a} _ hdown h := by
    obtain ⟨m, hrun⟩ := complete hdown h
    exact ⟨{ g with metadata := m }, by simp only [ask, hrun]⟩

/-- A question that only reads gives what it reads. -/
theorem ask_reads (q : Metadata.Request) (read : Metadata → α)
    (hread : ∀ {m m' : Metadata}, m.Looked m' → read m' = read m) :
    Yields (ask do Metadata.available q; return read (← get)) fun m a => a = read m := by
  apply ask_yields
  · intro m m' a hl
    rw [hread hl]
  · intro m
    simp only [finalState, Metadata.reads_run]
    by_cases hdown : m.down.contains q
    · simp only [if_pos hdown, Metadata.Looked.refl]
    · simp only [if_neg hdown, Metadata.Looked.refl]
  · intro m m' a h
    rw [Metadata.reads_run] at h
    split at h
    · cases h
    · cases h
      rfl
  · intro m a hdown h
    exact ⟨m, by rw [Metadata.reads_run, hdown, h]; rfl⟩

/-- A part passes if the verifier for its kind finds nothing. -/
theorem verify_decides (app : ApplicationId) (s : Subject) :
    Decides (Gate.verify app s) fun _ => s.verdict app = .ok () where
  stable _ := Iff.rfl
  looks g hr := by
    obtain ⟨r, hr', hrun⟩ := hr.verify app s
    simp only [finalState, Gate.verify, hrun]
    cases s.verdict app <;> exact ⟨.refl _, hr'⟩
  sound {g g' _} hr h := by
    obtain ⟨r, -, hrun⟩ := hr.verify app s
    simp only [Gate.verify, hrun] at h
    cases hv : s.verdict app with
    | ok => rfl
    | error f => simp [hv] at h
  complete {g _} hr hdown h := by
    obtain ⟨r, -, hrun⟩ := hr.verify app s
    simp [Gate.verify, hrun, h]

/-- The versions of an application are given in their order. -/
theorem versions_yields (ref : ApplicationRef) :
    Yields (ask (Metadata.versions ref)) fun m ids => ids =
      (((m.applications.map (·.1)).filter fun id => id.ref = ref).mergeSort
        fun a b => a.version ≤ b.version) :=
  ask_reads .versions _ fun ⟨_, hl⟩ => by rw [hl]

/-- The owner of record is given. -/
theorem owner_yields (e : EntityId) :
    Yields (ask (Metadata.owner e)) fun m o => o = m.ownerOf e :=
  ask_reads .owner _ fun ⟨_, hl⟩ => by rw [hl]

/-- Who acts for a namespace is given. -/
theorem impersonation_yields (scope : String) :
    Yields (ask (Metadata.impersonationPrincipal scope))
      fun m p => p = Keyed.find? scope m.impersonation :=
  ask_reads .impersonation _ fun ⟨_, hl⟩ => by rw [hl]

/-- A look at a dataset gives its description to everybody who may look. -/
theorem dataset_yields (id : DatasetId) (user : String) :
    Yields (ask (Metadata.dataset id user)) fun m spec =>
      m.MayLook user ∧ spec = (Keyed.find? id m.datasets).map (·.spec) := by
  apply ask_yields
  · rintro m m' spec ⟨looks, rfl⟩
    rfl
  · intro m
    simp only [finalState, Metadata.dataset_run]
    by_cases hdown : m.down.contains .dataset
    · simp only [if_pos hdown, Metadata.Looked.refl]
    · -- The look-up is noted whether or not it is allowed.
      by_cases hmay : m.restrictedTo.any (· ≠ user)
      · simp only [if_neg hdown, if_pos hmay]
        exact ⟨_, rfl⟩
      · simp only [if_neg hdown, if_neg hmay]
        exact ⟨_, rfl⟩
  · intro m m' spec h
    rw [Metadata.dataset_run] at h
    split at h
    · cases h
    · split at h
      · cases h
      next hmay =>
        cases h
        exact ⟨(m.mayLook_iff user).2 hmay, rfl⟩
  · rintro m spec hdown ⟨hmay, rfl⟩
    refine ⟨{ m with lookups := m.lookups ++ [⟨id, user⟩] }, ?_⟩
    rw [Metadata.dataset_run, if_neg (by simp [hdown])]
    exact if_neg ((m.mayLook_iff user).1 hmay)

/-- Who looks at datasets is told by the metadata. -/
theorem authorizingUser_yields (scope : String) (owner : Option Principal) (requester : String) :
    Yields (authorizingUser scope owner requester)
      fun m user => user = m.actor scope owner requester := by
  cases owner with
  | some o => exact Yields.pure o.name
  | none =>
    -- Without an owner the impersonated principal acts, and without that one the requester.
    have hpick : ∀ p : Option Principal,
        Yields (match p with | some p => Pure.pure p.name | none => Pure.pure requester : Gate _)
          fun _ user => user = match p with | some p => p.name | none => requester := by
      intro p
      cases p with
      | some p => exact Yields.pure p.name
      | none => exact Yields.pure requester
    refine (Yields.bind (impersonation_yields scope) hpick).congr fun m user => ?_
    simp only [exists_eq_left]
    rfl

/-- The owner of record has to be the one that is asked for. -/
theorem verifyOwner_decides (e : EntityId) (requested : Option Principal) :
    Decides (verifyOwner e requested) fun m => m.ownerOf e = requested := by
  have hrefuse : ∀ existing, Decides
      (if existing ≠ requested then throw (.unauthorized ⟨e, existing, requested⟩)
        else Pure.pure ()) fun _ => ¬ existing ≠ requested :=
    fun existing => Decides.refuse _
  refine (Yields.bind (owner_yields e) hrefuse).congr fun m _ => ?_
  simp only [exists_eq_left, Decidable.not_not]

end Gate

/-! ## The gates -/

namespace Deployable

open Gate

/-- A declared dataset may be registered: it is well formed, may be looked at, and if it exists, it
has the declared type and the owner that is asked for. -/
structure Accepts (d : Deployable) (m : Metadata) (s : DatasetSpec) : Prop where
  formed : s.verdict d.id = .ok ()
  shown : m.MayLook (m.actor d.scope d.owner d.requester)
  kind : ∀ x, Keyed.find? (d.id.dataset s.name) m.datasets = some x → x.spec.kind = s.kind
  owned : m.Has (.dataset (d.id.dataset s.name)) →
    m.ownerOf (.dataset (d.id.dataset s.name)) = d.owner

/-- The application may be registered. -/
structure Admissible (d : Deployable) (m : Metadata) : Prop where
  owner : ∀ o, d.owner = some o → o.isValid
  owned : m.Has (.application d.id.ref) → m.ownerOf (.application d.id.ref) = d.owner
  formed : d.spec.verdict = .ok ()
  datasets : ∀ s ∈ d.spec.datasets.values, d.Accepts m s
  programs : ∀ p ∈ d.spec.programs, p.2.verdict p.2.kind d.id = .ok ()
  workflows : ∀ w ∈ d.spec.workflows.values, ∃ report, d.spec.checkWorkflow w = .ok report
  schedules : ∀ s ∈ d.spec.schedules.values, d.spec.workflows.contains s.program

variable (d : Deployable)

/-- The gate of the owner is passed where it is a principal, or none is asked for. -/
theorem ownerGate_decides : Decides d.ownerGate fun _ => ∀ o, d.owner = some o → o.isValid := by
  rw [ownerGate]
  cases d.owner with
  | none => exact Decides.pure.congr fun m _ => by simp
  | some o => exact (Decides.refuse _).congr fun m _ => by simp

/-- The gate of the version is passed where no version is there, or the owner is the one that is
asked for. -/
theorem versionGate_decides : Decides d.versionGate fun m =>
    m.Has (.application d.id.ref) → m.ownerOf (.application d.id.ref) = d.owner := by
  -- Only a name under which a version is stored has an owner to compare with.
  have hverify : ∀ ids : List ApplicationId, Decides
      (if !ids.isEmpty then verifyOwner (.application d.id.ref) d.owner else pure ())
      fun m => ids ≠ [] → m.ownerOf (.application d.id.ref) = d.owner := by
    intro ids
    refine (Decides.ite (verifyOwner_decides _ _) Decides.pure).congr fun m _ => ?_
    cases ids <;> simp
  refine (Yields.bind (versions_yields d.id.ref) hverify).congr fun m _ => ?_
  rw [exists_eq_left]
  show (_ → _) ↔ (_ → _)
  rw [Metadata.has_application_iff, ne_eq, ne_eq, ← List.length_eq_zero_iff,
    List.length_mergeSort, List.length_eq_zero_iff]

/-- The gate of a dataset is passed where it is well formed, may be looked at and, if it exists, has
the declared type and the owner that is asked for. -/
theorem datasetGate_decides (user : String) (s : DatasetSpec) :
    Decides (d.datasetGate user s) fun m => s.verdict d.id = .ok () ∧ m.MayLook user ∧
      ∀ x, Keyed.find? (d.id.dataset s.name) m.datasets = some x →
        x.spec.kind = s.kind ∧ m.ownerOf (.dataset (d.id.dataset s.name)) = d.owner := by
  -- The kind is compared before the owner.
  have hexisting : ∀ x : DatasetInstance, Decides (do
      if x.kind ≠ s.kind then throw (.datasetTypeMismatch s.name s.kind)
      verifyOwner (.dataset (d.id.dataset s.name)) d.owner)
      fun m => x.kind = s.kind ∧ m.ownerOf (.dataset (d.id.dataset s.name)) = d.owner :=
    fun x => (Decides.refuseFirst _ (verifyOwner_decides _ _)).congr fun m _ => by simp
  rw [datasetGate]
  refine Yields.congr (Decides.bind (verify_decides d.id (.dataset s))
    (Decides.bindSome (dataset_yields _ user) (by rfl) hexisting)) fun m _ => ?_
  simp only [and_assoc, exists_and_left, exists_eq_left, Option.map_eq_some_iff,
    forall_exists_index, and_imp, forall_apply_eq_imp_iff₂]
  rfl

/-- The gate of a workflow is passed where there is a report of it. -/
theorem workflowGate_decides (w : WorkflowSpec) :
    Decides (d.workflowGate w) fun _ => ∃ report, d.spec.checkWorkflow w = .ok report := by
  rw [workflowGate]
  cases d.spec.checkWorkflow w with
  | ok report => exact Decides.pure.congr fun m _ => by simp
  | error f => exact (Yields.throw _).congr fun m _ => by simp

/-- The gate of a schedule is passed where its workflow is declared. -/
theorem scheduleGate_decides (s : ScheduleSpec) :
    Decides (d.scheduleGate s) fun _ => d.spec.workflows.contains s.program :=
  (Decides.refuse _).congr fun m _ => by simp

/-- The gates admit exactly the admissible applications. -/
theorem passGates_decides : Decides d.passGates d.Admissible := by
  have hdatasets : ∀ user, Decides (d.spec.datasets.values.forM (d.datasetGate user)) _ :=
    fun user => Decides.forM fun s _ => d.datasetGate_decides user s
  have hprograms : Decides (d.spec.programs.forM fun p => Gate.verify d.id (.program p.2)) _ :=
    Decides.forM fun p _ => verify_decides d.id (.program p.2)
  have hworkflows : Decides (d.spec.workflows.values.forM d.workflowGate) _ :=
    Decides.forM fun w _ => d.workflowGate_decides w
  have hschedules : Decides (d.spec.schedules.values.forM d.scheduleGate) _ :=
    Decides.forM fun s _ => d.scheduleGate_decides s
  -- the checks are put together in the order in which they are made
  have hrest := Yields.bind (authorizingUser_yields d.scope d.owner d.requester) fun user =>
    (hdatasets user).bind (hprograms.bind (hworkflows.bind hschedules))
  refine (d.ownerGate_decides.bind (d.versionGate_decides.bind
    ((verify_decides d.id (.application d.spec)).bind hrest))).congr fun m _ => ?_
  simp only [exists_eq_left]
  constructor
  · rintro ⟨howner, howned, hformed, hds, hps, hws, hss⟩
    refine ⟨howner, howned, hformed, fun s hs => ?_, hps, hws, hss⟩
    -- the owner of a dataset is checked only where the dataset exists
    obtain ⟨formed, shown, existing⟩ := hds s hs
    refine ⟨formed, shown, fun x hx => (existing x hx).1, fun hhas => ?_⟩
    obtain ⟨x, hx⟩ := Option.isSome_iff_exists.1 hhas
    exact (existing x hx).2
  · intro h
    refine ⟨h.owner, h.owned, h.formed, fun s hs => ?_, h.programs, h.workflows, h.schedules⟩
    have hs := h.datasets s hs
    refine ⟨hs.formed, hs.shown, fun x hx => ⟨hs.kind x hx, hs.owned ?_⟩⟩
    exact Option.isSome_iff_exists.2 ⟨x, hx⟩

/-- What is admitted is the application as it was, if it is admissible. -/
theorem approve_yields : Yields d.approve fun m d' => d' = d ∧ d.Admissible m :=
  (Yields.bind d.passGates_decides fun _ => Yields.pure d).congr fun m d' => by
    simp only [exists_const]
    exact and_comm

end Deployable

end Deployment
