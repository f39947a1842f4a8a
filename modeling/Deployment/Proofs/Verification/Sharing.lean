import Deployment.Proofs.Verification.Alike
import Mathlib.Data.Finset.Card

/-! # Registries that are shared

A registry keeps the verifiers that it has made, and whoever asks next is given one of those. Nobody
can tell: what is found in a part is what a verifier made for it finds, whatever the registry was
used for before.

* **`VerifierRegistry.Use`** — a use of a registry.
* **`VerifierRegistry.after`**, **`afterVerifying`** — the registry after uses, and after
  verifications of whole applications.
* **`VerifierRegistry.Keeps`** — the verifiers that a registry keeps are those of some kinds.
* **`SpecFault.isForeign`** — the fault of a part that was given to the wrong verifier.
* **`Deployable.approve_steady`** — the gates go alike wherever questions and checks do.
* **`shared_registry_unnoticed`** — what is found, what is kept, and what verifications come to. -/

namespace Deployment

open Stateful

/-! ## Parts for the wrong verifier -/

/-- The fault of a part that was given to a verifier for parts of another kind or category. -/
def SpecFault.isForeign : SpecFault → Bool
  | .foreignProgram _ _ => true
  | .foreignSubject _ => true
  | _ => false

namespace Verdict

/-- No part was given to the wrong verifier. -/
def AtHome (v : Verdict) : Prop := ∀ f, v = .error f → f.isForeign = false

/-- What is required is judged at home if its fault is. -/
theorem atHome_require {ok : Bool} {f : SpecFault} (h : ok = false → f.isForeign = false) :
    AtHome (require ok f) := by
  cases ok with
  | true => exact fun _ => nofun
  | false =>
    rintro _ ⟨⟩
    exact h rfl

/-- Two verdicts at home are at home together. -/
theorem AtHome.bind {x y : Verdict} (hx : x.AtHome) (hy : y.AtHome) :
    AtHome (x >>= fun _ => y) := by
  cases x with
  | ok _ => exact hy
  | error f => exact hx

/-- Verdicts at home on each of a list are so on all of it. -/
theorem AtHome.forM {α : Type} {l : List α} {check : α → Verdict} (h : ∀ a, (check a).AtHome) :
    AtHome (l.forM check) := by
  induction l with
  | nil => exact fun _ => nofun
  | cons a rest ih => exact (h a).bind ih

end Verdict

/-- What the verifier for a part finds in it: an application and a dataset have one each, and a
program has that of its own kind. -/
def Subject.ownVerdict (s : Subject) (app : ApplicationId) : Verdict :=
  match s with
  | .application a => a.verdict
  | .dataset d => d.verdict app
  | .program p => p.verdict p.kind app

namespace Subject

/-- The verifier that is made for the kind of a part is the one for the part. -/
@[simp] theorem verify_ofKind (s : Subject) (app : ApplicationId) :
    (Verifier.ofKind s.kind).verify app s = s.ownVerdict app := by
  cases s <;> rfl

/-- The verifier for the kind of a part is at home with it. -/
theorem atHome_ownVerdict (s : Subject) (app : ApplicationId) : (s.ownVerdict app).AtHome := by
  have hrequire : ∀ {ok f}, f.isForeign = false → (Verdict.require ok f).AtHome :=
    fun h => Verdict.atHome_require fun _ => h
  cases s with
  | application a =>
    exact (hrequire rfl).bind <| (hrequire rfl).bind <| (hrequire rfl).bind <|
      (Verdict.AtHome.forM fun _ => hrequire rfl).bind (Verdict.AtHome.forM fun _ => hrequire rfl)
  | dataset d => exact (hrequire rfl).bind (hrequire rfl)
  | program p =>
    -- a program is always of its own kind
    refine (Verdict.atHome_require fun h => ?_).bind (hrequire rfl)
    exact absurd rfl (of_decide_eq_false h)

end Subject

/-! ## Uses -/

namespace VerifierRegistry

/-- A use of a registry: a verifier is asked for, or a part is checked. -/
inductive Use where
  | get (kind : SpecKind)
  | verify (app : ApplicationId) (s : Subject)

/-- The kind whose verifier is used. -/
def Use.kind : Use → SpecKind
  | .get kind => kind
  | .verify _ s => s.kind

/-- The registry after one use. -/
def Use.step (r : VerifierRegistry) : Use → VerifierRegistry
  | .get kind => ((VerifierRegistry.get kind).run r).2
  | .verify app s => ((VerifierRegistry.verify app s).run r).2

/-- The registry after uses, one after the other. -/
def after (r : VerifierRegistry) (uses : List Use) : VerifierRegistry := uses.foldl Use.step r

/-- The registry after applications were verified with it, each against some metadata. -/
def afterVerifying (r : VerifierRegistry) (runs : List (Deployable × Metadata)) :
    VerifierRegistry :=
  runs.foldl (fun r run => (finalState run.1.approve ⟨run.2, r⟩).registry) r

/-- A verifier that is kept is given as it is. -/
theorem get_of_kept {r : VerifierRegistry} {kind : SpecKind} {v : Verifier}
    (h : Keyed.find? kind r.verifiers = some v) : (get kind).run r = (v, r) := by
  simp [get, h]
  rfl

/-- A verifier that is not kept is made and kept. -/
theorem get_of_missing {r : VerifierRegistry} {kind : SpecKind}
    (h : Keyed.find? kind r.verifiers = none) : (get kind).run r =
      (Verifier.ofKind kind, ⟨Keyed.put kind (Verifier.ofKind kind) r.verifiers⟩) := by
  simp [get, h]
  rfl

/-- The verifiers that a registry keeps are those of some kinds, one for each. -/
structure Keeps (r : VerifierRegistry) (kinds : List SpecKind) : Prop where
  distinct : (r.verifiers.map (·.1)).Nodup
  found : ∀ kind, Keyed.find? kind r.verifiers =
    if kind ∈ kinds then some (Verifier.ofKind kind) else none

/-- An empty registry keeps no verifier. -/
theorem keeps_empty : empty.Keeps [] := ⟨.nil, fun _ => rfl⟩

namespace Keeps

variable {r : VerifierRegistry} {kinds : List SpecKind}

/-- A registry that keeps the verifiers for some kinds is faithful. -/
theorem faithful (h : r.Keeps kinds) : r.Faithful := by
  intro kind v hv
  rw [h.found] at hv
  split at hv <;> cases hv
  rfl

/-- A kind is kept exactly if it is one of those. -/
theorem mem_keys_iff (h : r.Keeps kinds) {kind : SpecKind} :
    kind ∈ r.verifiers.map (·.1) ↔ kind ∈ kinds := by
  rw [← Keyed.contains_iff_mem, Keyed.contains, h.found]
  by_cases hk : kind ∈ kinds <;> simp [hk]

/-- As many verifiers are kept as there are kinds. -/
theorem size_eq (h : r.Keeps kinds) : r.size = kinds.toFinset.card := by
  have hkeys : (r.verifiers.map (·.1)).toFinset = kinds.toFinset := by
    ext kind
    rw [List.mem_toFinset, List.mem_toFinset, h.mem_keys_iff]
  rw [← hkeys, List.toFinset_card_of_nodup h.distinct, List.length_map]
  rfl

/-- The verifier that is asked for is the one for its kind, and is kept from then on. -/
theorem get (h : r.Keeps kinds) (kind : SpecKind) :
    ((VerifierRegistry.get kind).run r).1 = Verifier.ofKind kind ∧
      ((VerifierRegistry.get kind).run r).2.Keeps (kinds ++ [kind]) := by
  by_cases hk : kind ∈ kinds
  · -- A kind asked for before is found, and the registry stays as it was.
    rw [get_of_kept ((h.found kind).trans (if_pos hk))]
    refine ⟨rfl, h.distinct, fun kind' => (h.found kind').trans (if_congr ?_ rfl rfl)⟩
    rw [List.mem_append, List.mem_singleton]
    exact (or_iff_left_of_imp (· ▸ hk)).symm
  · rw [get_of_missing ((h.found kind).trans (if_neg hk))]
    refine ⟨rfl, Keyed.nodup_put h.distinct _ _, fun kind' => ?_⟩
    rw [Keyed.find?_put, h.found]
    by_cases heq : kind = kind'
    · rw [if_pos heq, if_pos (List.mem_append_right _ (List.mem_singleton.2 heq.symm)), heq]
    · rw [if_neg heq]
      refine if_congr ?_ rfl rfl
      rw [List.mem_append, List.mem_singleton, or_iff_left (Ne.symm heq)]

/-- A check finds what the verifier for the part finds. -/
theorem verify (h : r.Keeps kinds) (app : ApplicationId) (s : Subject) :
    ((VerifierRegistry.verify app s).run r).1 = s.verdict app ∧
      ((VerifierRegistry.verify app s).run r).2.Keeps (kinds ++ [s.kind]) := by
  obtain ⟨hgiven, hkeeps⟩ := h.get s.kind
  exact ⟨congrArg (Verifier.verify · app s) hgiven, hkeeps⟩

/-- A use of the registry keeps the verifier for the kind that it is for. -/
theorem step (h : r.Keeps kinds) (use : Use) : (use.step r).Keeps (kinds ++ [use.kind]) := by
  cases use with
  | get kind => exact (h.get kind).2
  | verify app s => exact (h.verify app s).2

/-- What a registry keeps after uses are the verifiers for the kinds that they were of. -/
theorem after (h : r.Keeps kinds) (uses : List Use) :
    (r.after uses).Keeps (kinds ++ uses.map Use.kind) := by
  induction uses generalizing r kinds with
  | nil =>
    rw [List.map_nil, List.append_nil]
    exact h
  | cons use rest ih =>
    have hrest := ih (h.step use)
    rwa [List.append_assoc] at hrest

end Keeps

/-- Verifications of applications keep a registry faithful. -/
theorem Faithful.afterVerifying {r : VerifierRegistry} (h : r.Faithful)
    (runs : List (Deployable × Metadata)) : (r.afterVerifying runs).Faithful := by
  induction runs generalizing r with
  | nil => exact h
  | cons run rest ih => exact ih (run.1.approve_yields.looks ⟨run.2, r⟩ h).2

end VerifierRegistry

/-! ## Verifications of applications -/

namespace Deployable

open Gate

variable (d : Deployable)

/-- The gates go alike wherever all questions and all checks do. -/
theorem approve_steady {R : Gatehouse → Gatehouse → Prop}
    (hask : ∀ {α : Type} (request : Metadata.Change α), Steady R (ask request))
    (hverify : ∀ app s, Steady R (Gate.verify app s)) : Steady R d.approve := by
  -- One gate after another, in the order in which they are passed.
  have huser : ∀ owner, Steady R (authorizingUser d.scope owner d.requester) := by
    intro owner
    cases owner with
    | some o => exact Steady.pure o.name
    | none =>
      refine Steady.bind (hask _) fun p => ?_
      cases p with
      | some p => exact Steady.pure p.name
      | none => exact Steady.pure d.requester
  have howner : ∀ e, Steady R (verifyOwner e d.owner) :=
    fun e => Steady.bind (hask _) fun _ => Steady.refuse _
  have hversions : Steady R d.versionGate :=
    Steady.bind (hask _) fun _ => Alike.ite (howner _) (Steady.pure ())
  have hdataset : ∀ user s, Steady R (d.datasetGate user s) := by
    intro user s
    refine Steady.bind (hverify _ _) fun _ => Steady.bind (hask _) fun found => ?_
    cases found with
    | none => exact Steady.pure ()
    | some x => exact Steady.refuseFirst _ (howner _)
  have hgates : Steady R d.passGates :=
    d.ownerGate_steady.bind fun _ => hversions.bind fun _ => (hverify _ _).bind fun _ =>
      (huser d.owner).bind fun user => (Steady.forM fun s _ => hdataset user s).bind fun _ =>
        (Steady.forM fun p _ => hverify _ _).bind fun _ =>
          (Steady.forM fun w _ => d.workflowGate_steady w).bind fun _ =>
            Steady.forM fun s _ => Steady.refuse _
  exact hgates.bind fun _ => Steady.pure d

/-- With registries that are faithful an application is verified alike. -/
theorem approve_of_faithful {r r' : VerifierRegistry} (h : r.Faithful) (h' : r'.Faithful)
    (m : Metadata) : answer d.approve ⟨m, r⟩ = answer d.approve ⟨m, r'⟩ ∧
      (finalState d.approve ⟨m, r⟩).metadata = (finalState d.approve ⟨m, r'⟩).metadata := by
  -- Two gatehouses that differ only in what their registries have met so far.
  let R (g g' : Gatehouse) : Prop :=
    g.metadata = g'.metadata ∧ g.registry.Faithful ∧ g'.registry.Faithful
  have hask : ∀ {α : Type} (request : Metadata.Change α), Steady R (ask request) := by
    rintro α request ⟨m, r⟩ ⟨_, r'⟩ ⟨rfl, hr, hr'⟩
    simp only [ask]
    cases request m with
    | ok a m' => exact .ok rfl ⟨rfl, hr, hr'⟩
    | error f m' => exact .error _ ⟨rfl, hr, hr'⟩
  have hverify : ∀ app s, Steady R (Gate.verify app s) := by
    rintro app s ⟨m, r⟩ ⟨_, r'⟩ ⟨rfl, hr, hr'⟩
    obtain ⟨q, hq, hrun⟩ := hr.verify app s
    obtain ⟨q', hq', hrun'⟩ := hr'.verify app s
    simp only [Gate.verify, hrun, hrun']
    cases s.verdict app with
    | ok _ => exact .ok rfl ⟨rfl, hq, hq'⟩
    | error f => exact .error _ ⟨rfl, hq, hq'⟩
  have hstart : R ⟨m, r⟩ ⟨m, r'⟩ := ⟨rfl, h, h'⟩
  obtain ⟨hanswer, hleft, -, -⟩ := (d.approve_steady hask hverify).answer_eq hstart
  exact ⟨hanswer.symm, hleft⟩

end Deployable

open VerifierRegistry in
/-- Nobody can tell that verifiers are kept. Whatever a registry was used for, it finds in a part
what a verifier made for its kind finds, which is the one for the part; it never gives a part to the
wrong verifier; it gives out the verifier that is made for a kind; it keeps one verifier for each
kind that it was asked for, and no use replaces one; and an application is verified with it as with
a new registry, also when whole applications were verified with it before. -/
theorem shared_registry_unnoticed (uses : List Use) :
    let r := empty.after uses
    (∀ app s, ((verify app s).run r).1 = (Verifier.ofKind s.kind).verify app s ∧
      ((verify app s).run r).1 = s.ownVerdict app ∧
      ∀ f, ((verify app s).run r).1 = .error f → f.isForeign = false) ∧
    (∀ kind, ((VerifierRegistry.get kind).run r).1 = Verifier.ofKind kind) ∧
    (∀ kind v, Keyed.find? kind r.verifiers = some v →
      v = Verifier.ofKind kind ∧ ∀ more, Keyed.find? kind (r.after more).verifiers = some v) ∧
    (∀ kind, r.contains kind ↔ kind ∈ uses.map Use.kind) ∧
    r.size = (uses.map Use.kind).toFinset.card ∧
    ∀ (runs : List (Deployable × Metadata)) (d : Deployable) (m : Metadata),
      answer d.approve ⟨m, r.afterVerifying runs⟩ = answer d.approve ⟨m, .empty⟩ ∧
        (finalState d.approve ⟨m, r.afterVerifying runs⟩).metadata =
          (finalState d.approve ⟨m, .empty⟩).metadata := by
  intro r
  have hkeeps : r.Keeps (uses.map Use.kind) := keeps_empty.after uses
  refine ⟨fun app s => ?_, fun kind => (hkeeps.get kind).1, fun kind v hv => ?_, fun kind => ?_,
    hkeeps.size_eq, fun runs d m => d.approve_of_faithful (hkeeps.faithful.afterVerifying runs)
      faithful_empty m⟩
  · have hfinds := (hkeeps.verify app s).1
    rw [hfinds]
    refine ⟨rfl, s.verify_ofKind app, ?_⟩
    rw [Subject.verdict, s.verify_ofKind app]
    exact s.atHome_ownVerdict app
  · obtain rfl := hkeeps.faithful kind v hv
    refine ⟨rfl, fun more => ?_⟩
    -- A verifier that is found was asked for, so it is kept whatever comes next.
    have hkind : kind ∈ uses.map Use.kind := by
      rw [hkeeps.found] at hv
      exact Classical.byContradiction fun hno => nomatch (if_neg hno).symm.trans hv
    rw [(hkeeps.after more).found, if_pos (List.mem_append_left _ hkind)]
  · rw [contains, Keyed.contains_iff_mem, hkeeps.mem_keys_iff]

end Deployment
