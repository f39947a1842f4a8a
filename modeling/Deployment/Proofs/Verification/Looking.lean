import Deployment.Proofs.Verification.Requirements

/-! # Who looks at what

The gates leave one trace: the looks that they take at datasets. A check that can stop at any point
takes the front of the looks that it plans, and all of them if it is passed.

* **`Gate.Takes`** — the looks that a check takes, with a rule for each way to compose checks.
* **`Deployable.earlyGates`** — the gates before any look.
* **`Deployable.passGates_takes`** — the looks of all gates: at the declared datasets, as one
  identity.
* **`looks_as_authorized`** — what a verification looks at, and as whom. -/

namespace Deployment

open Stateful Deployable

namespace Gate

/-! ## Looks of checks -/

variable {α β : Type}

/-- A check that was begun takes the looks at the front of a plan, and all of them if it is passed.
It changes nothing else that is known. -/
def Takes (x : Gate α) (g : Gatehouse) (plan : List Lookup) : Prop :=
  ∃ taken, taken <+: plan ∧
    (finalState x g).metadata = { g.metadata with lookups := g.metadata.lookups ++ taken } ∧
    ∀ a g', x g = .ok a g' → taken = plan

namespace Takes

variable {x : Gate α} {f : α → Gate β} {g : Gatehouse} {plan more : List Lookup}

/-- A check that leaves the metadata as it is plans no look. -/
theorem of_same (h : (finalState x g).metadata = g.metadata) : Takes x g [] :=
  ⟨[], List.prefix_rfl, by rw [h, List.append_nil], fun _ _ _ => rfl⟩

/-- A check that takes no look leaves the metadata as it is. -/
theorem same (h : Takes x g []) : (finalState x g).metadata = g.metadata := by
  obtain ⟨taken, hfront, hleft, -⟩ := h
  rw [hleft, List.prefix_nil.1 hfront, List.append_nil]

/-- Giving a value takes no look. -/
theorem pure (a : α) : Takes (Pure.pure a) g [] := of_same rfl

/-- A check that is never passed takes no more than it has taken. -/
theorem throw (e : VerificationFault) : Takes (throw e : Gate α) g plan :=
  ⟨[], List.nil_prefix, by rw [List.append_nil]; rfl, fun _ _ h => by cases h⟩

/-- What comes second is planned behind what comes first. -/
theorem bind (hx : Takes x g plan) (hf : ∀ a g', x g = .ok a g' → Takes (f a) g' more) :
    Takes (x >>= f) g (plan ++ more) := by
  obtain ⟨taken, hfront, hleft, hall⟩ := hx
  cases hrun : x g with
  | error e g' =>
    rw [finalState_of_error hrun] at hleft
    refine ⟨taken, hfront.trans (List.prefix_append _ _), ?_, fun b g'' h => ?_⟩
    · rw [finalState_bind, hrun]
      exact hleft
    · rw [run_bind, hrun] at h
      cases h
  | ok a g' =>
    rw [finalState_of_ok hrun] at hleft
    obtain ⟨taken', hfront', hleft', hall'⟩ := hf a g' hrun
    -- The first part took its whole plan, so the second goes on where that ends.
    obtain rfl := hall a g' hrun
    refine ⟨taken ++ taken', (List.prefix_append_right_inj _).2 hfront', ?_, fun b g'' h => ?_⟩
    · rw [finalState_bind, hrun]
      simp only [hleft', hleft, List.append_assoc]
    · rw [run_bind, hrun] at h
      rw [hall' b g'' h]

/-- A check before any look. -/
theorem after (hx : Takes x g []) (hf : ∀ a g', x g = .ok a g' → Takes (f a) g' more) :
    Takes (x >>= f) g more := bind hx hf

/-- A check under a condition takes the looks of the branch that is chosen. -/
theorem ite {c : Prop} [Decidable c] {y : Gate α} (hx : Takes x g plan) (hy : Takes y g plan) :
    Takes (if c then x else y) g plan := by
  split
  · exact hx
  · exact hy

/-- A check of every one of a list takes the looks for one after the other. -/
theorem forM {l : List α} {f : α → Gate Unit} {looks : α → List Lookup}
    (hf : ∀ a ∈ l, ∀ g, Takes (f a) g (looks a)) (g : Gatehouse) :
    Takes (l.forM f) g (l.flatMap looks) := by
  induction l generalizing g with
  | nil => exact pure ()
  | cons a rest ih =>
    exact bind (hf a List.mem_cons_self g) fun _ g' _ =>
      ih (fun b hb => hf b (List.mem_cons_of_mem a hb)) g'

/-- If none of the checks looks at anything, all of them together do not. -/
theorem forM_nothing {l : List α} {f : α → Gate Unit} (hf : ∀ a g, Takes (f a) g [])
    (g : Gatehouse) : Takes (l.forM f) g [] := by
  have h : Takes (l.forM f) g (l.flatMap fun _ => []) := forM (fun a _ => hf a) g
  rwa [List.flatMap_eq_nil_iff.2 fun _ _ => rfl] at h

/-- Behind a check that is not passed nothing is looked at. -/
theorem same_of_failing (hx : Takes x g []) (hno : ∀ a g', x g ≠ .ok a g') :
    (finalState (x >>= f) g).metadata = g.metadata := by
  have hsame := hx.same
  cases hrun : x g with
  | ok a g' => exact absurd hrun (hno a g')
  | error e g' =>
    rw [finalState_bind, hrun]
    rwa [finalState_of_error hrun] at hsame

end Takes

/-! ## Looks of questions -/

/-- A request that leaves the metadata takes no look. -/
theorem ask_takes {x : Metadata.Change α} {g : Gatehouse}
    (h : finalState x g.metadata = g.metadata) : Takes (ask x) g [] := by
  refine Takes.of_same ?_
  simp only [finalState, ask] at h ⊢
  cases hrun : x g.metadata <;> simpa only [hrun] using h

/-- A question that only reads looks at no dataset. -/
theorem ask_reads_takes (q : Metadata.Request) (read : Metadata → α) (g : Gatehouse) :
    Takes (ask do Metadata.available q; return read (← get)) g [] := by
  refine ask_takes ?_
  simp only [finalState, Metadata.reads_run]
  by_cases hdown : g.metadata.down.contains q
  · simp only [if_pos hdown]
  · simp only [if_neg hdown]

/-- A look at a dataset is taken unless looks are not available. -/
theorem dataset_takes (id : DatasetId) (user : String) (g : Gatehouse) :
    Takes (ask (Metadata.dataset id user)) g [⟨id, user⟩] := by
  simp only [Takes, finalState, ask, Metadata.dataset_run]
  by_cases hdown : g.metadata.down.contains .dataset
  · simp only [if_pos hdown]
    exact ⟨[], List.nil_prefix, by rw [List.append_nil], fun _ _ h => by cases h⟩
  · simp only [if_neg hdown]
    refine ⟨[⟨id, user⟩], List.prefix_rfl, ?_, fun _ _ _ => rfl⟩
    by_cases hmay : g.metadata.restrictedTo.any (· ≠ user)
    · simp only [if_pos hmay]
    · simp only [if_neg hmay]

/-- Checking a part takes no look. -/
theorem verify_takes (app : ApplicationId) (s : Subject) (g : Gatehouse) :
    Takes (Gate.verify app s) g [] := by
  refine Takes.of_same ?_
  simp only [finalState, Gate.verify]
  generalize (VerifierRegistry.verify app s).run g.registry = found
  obtain ⟨verdict, registry⟩ := found
  cases verdict <;> rfl

/-- Finding out who looks takes no look. -/
theorem authorizingUser_takes (scope : String) (owner : Option Principal) (requester : String)
    (g : Gatehouse) : Takes (authorizingUser scope owner requester) g [] := by
  cases owner with
  | some o => exact Takes.pure o.name
  | none =>
    refine Takes.after (ask_reads_takes .impersonation _ g) fun p g' _ => ?_
    cases p with
    | some p => exact Takes.pure p.name
    | none => exact Takes.pure requester

/-- Checking an owner takes no look. -/
theorem verifyOwner_takes (e : EntityId) (requested : Option Principal) (g : Gatehouse) :
    Takes (verifyOwner e requested) g [] :=
  Takes.after (ask_reads_takes .owner _ g) fun _ _ _ => Takes.ite (Takes.throw _) (Takes.pure ())

end Gate

/-! ## Looks of gates -/

namespace Deployable

open Gate

variable (d : Deployable)

/-- The gates before any look at a dataset. -/
def earlyGates : Gate Unit := do
  d.ownerGate
  d.versionGate
  Gate.verify d.id (.application d.spec)

/-- The gates that look at datasets, and those behind them. -/
def lateGates : Gate Unit := do
  let user ← authorizingUser d.scope d.owner d.requester
  d.spec.datasets.values.forM (d.datasetGate user)
  d.spec.programs.forM fun p => Gate.verify d.id (.program p.2)
  d.spec.workflows.values.forM d.workflowGate
  d.spec.schedules.values.forM d.scheduleGate

/-- All gates are the early ones and then the late ones. -/
theorem passGates_eq : d.passGates = d.earlyGates >>= fun _ => d.lateGates := by
  simp only [passGates, earlyGates, lateGates, bind_assoc]

/-- The look that is planned at a declared dataset. -/
def look (user : String) (s : DatasetSpec) : Lookup := ⟨d.id.dataset s.name, user⟩

/-- The gate of the owner takes no look. -/
theorem ownerGate_takes (g : Gatehouse) : Takes d.ownerGate g [] := by
  rw [ownerGate]
  cases d.owner with
  | none => exact Takes.pure ()
  | some o => exact Takes.ite (Takes.throw _) (Takes.pure ())

/-- The gate of the version takes no look. -/
theorem versionGate_takes (g : Gatehouse) : Takes d.versionGate g [] :=
  Takes.after (ask_reads_takes .versions _ g) fun _ g' _ =>
    Takes.ite (verifyOwner_takes _ _ g') (Takes.pure ())

/-- The early gates take no look. -/
theorem earlyGates_takes (g : Gatehouse) : Takes d.earlyGates g [] :=
  Takes.after (d.ownerGate_takes g) fun _ g₁ _ =>
    Takes.after (d.versionGate_takes g₁) fun _ g₂ _ => verify_takes d.id _ g₂

/-- The gate of a dataset takes one look at it. -/
theorem datasetGate_takes (user : String) (s : DatasetSpec) (g : Gatehouse) :
    Takes (d.datasetGate user s) g [d.look user s] := by
  refine Takes.after (verify_takes d.id (.dataset s) g) fun _ g₁ _ => ?_
  -- behind the look nothing else is looked at
  rw [← List.append_nil [d.look user s]]
  refine Takes.bind (dataset_takes _ user g₁) fun found g₂ _ => ?_
  cases found with
  | none => exact Takes.pure ()
  | some existing =>
    refine Takes.ite (Takes.after (Takes.throw _) fun _ _ h => ?_) (verifyOwner_takes _ _ g₂)
    cases h

/-- The gate of a workflow takes no look. -/
theorem workflowGate_takes (w : WorkflowSpec) (g : Gatehouse) : Takes (d.workflowGate w) g [] := by
  rw [workflowGate]
  cases d.spec.checkWorkflow w with
  | ok report => exact Takes.pure ()
  | error f => exact Takes.throw _

/-- The gate of a schedule takes no look. -/
theorem scheduleGate_takes (s : ScheduleSpec) (g : Gatehouse) : Takes (d.scheduleGate s) g [] :=
  Takes.ite (Takes.throw _) (Takes.pure ())

/-- Where the early gates are passed, the identity that looks is that of the metadata. -/
theorem lateGates_takes {g : Gatehouse} (hr : g.registry.Faithful) :
    Takes d.lateGates g (d.spec.datasets.values.map
      (d.look (g.metadata.actor d.scope d.owner d.requester))) := by
  refine Takes.after (authorizingUser_takes _ _ _ g) fun user g₁ hrun => ?_
  obtain rfl := (authorizingUser_yields _ _ _).sound hr hrun
  rw [← List.append_nil (List.map _ _), List.map_eq_flatMap]
  refine Takes.bind (Takes.forM (fun s _ g => d.datasetGate_takes _ s g) g₁) fun _ g₂ _ => ?_
  -- no other gate looks at a dataset
  exact Takes.after (Takes.forM_nothing (fun p g => verify_takes d.id (.program p.2) g) g₂)
    fun _ g₃ _ => Takes.after (Takes.forM_nothing d.workflowGate_takes g₃)
      fun _ g₄ _ => Takes.forM_nothing d.scheduleGate_takes g₄

/-- What the early gates are passed for. -/
theorem earlyGates_decides : Decides d.earlyGates fun m =>
    (∀ o, d.owner = some o → o.isValid) ∧
      (m.Has (.application d.id.ref) → m.ownerOf (.application d.id.ref) = d.owner) ∧
        d.spec.verdict = .ok () :=
  d.ownerGate_decides.bind (d.versionGate_decides.bind (verify_decides d.id (.application d.spec)))

/-- The verification looks at the declared datasets, one after the other, as the authorized
identity, and at nothing where the early gates are not passed. -/
theorem passGates_takes {g : Gatehouse} (hr : g.registry.Faithful) :
    Takes d.passGates g (d.spec.datasets.values.map
      (d.look (g.metadata.actor d.scope d.owner d.requester))) := by
  rw [passGates_eq]
  refine Takes.after (d.earlyGates_takes g) fun _ g₁ hrun => ?_
  have hsame := (d.earlyGates_takes g).same
  obtain ⟨-, hr₁⟩ := d.earlyGates_decides.looks g hr
  rw [finalState_of_ok hrun] at hsame hr₁
  rw [← hsame]
  exact d.lateGates_takes hr₁

/-- An approval takes one look at each declared dataset, in their order, as far as it comes. -/
theorem approve_takes {g : Gatehouse} (hr : g.registry.Faithful) :
    Takes d.approve g (d.spec.datasets.values.map
      (d.look (g.metadata.actor d.scope d.owner d.requester))) := by
  rw [← List.append_nil (List.map _ _)]
  exact Takes.bind (d.passGates_takes hr) fun _ _ _ => Takes.pure d

/-- Where the early gates are not passed, nothing is looked at. -/
theorem approve_of_not_early {g : Gatehouse} (hno : ∀ g', d.earlyGates g ≠ .ok () g') :
    (finalState d.approve g).metadata = g.metadata := by
  rw [approve, passGates_eq, bind_assoc]
  exact (d.earlyGates_takes g).same_of_failing fun _ g' => hno g'

/-- Where the early gates are passed, so is the one that asks for the versions that there are. -/
theorem versionGate_of_earlyGates {g g₁ : Gatehouse} (h : d.earlyGates g = .ok () g₁) :
    ∃ g', d.versionGate g = .ok () g' := by
  obtain ⟨_, g₀, howner, hrest⟩ := run_bind_ok.1 h
  obtain ⟨_, g', hversions, -⟩ := run_bind_ok.1 hrest
  obtain rfl : g₀ = g := by
    rw [ownerGate] at howner
    cases ho : d.owner with
    | none =>
      rw [ho] at howner
      cases howner
      rfl
    | some o =>
      simp only [ho, run_ite] at howner
      split at howner <;> cases howner
      rfl
  exact ⟨g', hversions⟩

/-- In an application that is well described the declared datasets are those of their names. -/
theorem looks_eq_keys (h : d.spec.verdict = .ok ()) (user : String) :
    d.spec.datasets.values.map (d.look user) =
      d.spec.datasets.keys.map fun key => ⟨d.id.dataset key, user⟩ := by
  obtain ⟨-, -, -, hnames⟩ := ApplicationSpec.verdict_ok.1 h
  rw [NameMap.values, NameMap.keys, List.map_map, List.map_map]
  exact List.map_congr_left fun e he => by simp only [Function.comp, look, hnames e he]

end Deployable

/-- Verifications look at the declared datasets in the order of their names, all as one identity:
the owner that is asked for, else who acts for the namespace, else who asks. -/
theorem looks_as_authorized (d : Deployable) (m : Metadata) (kinds : List SpecKind) :
    let g : Gatehouse := ⟨m, .asked kinds⟩
    let user := m.actor d.scope d.owner d.requester
    -- The looks are at the first of the declared datasets, and nothing else that is known changes.
    (∃ seen, seen <+: d.spec.datasets.keys ∧
      (finalState d.approve g).metadata =
        { m with lookups := m.lookups ++ seen.map fun key => ⟨d.id.dataset key, user⟩ } ∧
      -- If the application is approved, each of them was looked at once.
      (d.Approved g → seen = d.spec.datasets.keys ∧ seen.Nodup) ∧
      -- None was if the versions that there are or the description of the application do not pass.
      ((∀ g', d.versionGate g ≠ .ok () g') ∨ d.spec.verdict ≠ .ok () → seen = [])) ∧
    -- An owner who is no principal is refused, whatever is known and whatever is unavailable.
    ∀ o, d.owner = some o → ¬ o.isValid → d.approve g = .error (.invalidPrincipal o.name) g := by
  intro g user
  have hr : g.registry.Faithful := VerifierRegistry.faithful_asked kinds
  refine ⟨?_, fun o ho hinvalid => ?_⟩
  · by_cases hearly : ∃ g₁, d.earlyGates g = .ok () g₁
    · obtain ⟨g₁, hrun⟩ := hearly
      obtain ⟨taken, hfront, hleft, hall⟩ := d.approve_takes hr
      obtain ⟨-, -, hverdict⟩ := d.earlyGates_decides.sound hr hrun
      rw [d.looks_eq_keys hverdict] at hfront hall
      obtain ⟨seen, hseen, rfl⟩ := List.prefix_map_iff.1 hfront
      refine ⟨seen, hseen, hleft, ?_, ?_⟩
      · rintro ⟨d', g', happroved⟩
        have hlength := congrArg List.length (hall d' g' happroved)
        rw [List.length_map, List.length_map] at hlength
        rw [hseen.eq_of_length hlength]
        exact ⟨rfl, d.spec.datasets.nodup_keys⟩
      · rintro (hno | hno)
        · exact absurd (d.versionGate_of_earlyGates hrun).choose_spec (hno _)
        · exact absurd hverdict hno
    · refine ⟨[], List.nil_prefix, ?_, ?_, fun _ => rfl⟩
      · rw [d.approve_of_not_early fun g₁ h => hearly ⟨g₁, h⟩]
        simp only [List.map_nil, List.append_nil]
        rfl
      · rintro ⟨d', g', happroved⟩
        rw [approve, passGates_eq] at happroved
        obtain ⟨_, g₂, hgates, -⟩ := run_bind_ok.1 happroved
        obtain ⟨_, g₁, hrun, -⟩ := run_bind_ok.1 hgates
        exact absurd ⟨g₁, hrun⟩ hearly
  · have hgate : d.ownerGate g = .error (.invalidPrincipal o.name) g := by
      simp only [ownerGate, ho, hinvalid]
      rfl
    simp only [approve, passGates, run_bind, hgate]

end Deployment
