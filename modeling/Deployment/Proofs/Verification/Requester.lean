import Deployment.Proofs.Verification.Alike

/-! # Who asks

The identity that looks at datasets can be the one that asks for a deployment. Where everybody may
look at datasets, nothing else of a verification is told by who asks, or by where the archive lies.

* **`Gatehouse.Likewise`** — the same is known, whatever was looked at, and everybody may look.
* **`Deployable.approve_likewise`** — the gates go alike for everybody who asks. -/

namespace Deployment

open Stateful

/-- The same is known with the same verifiers at hand, and everybody may look at datasets; other
looks may have been noted. -/
structure Gatehouse.Likewise (g g' : Gatehouse) : Prop where
  same : ∃ looks, g' = { g with metadata := { g.metadata with lookups := looks } }
  unrestricted : g.metadata.restrictedTo = none

namespace Gate

open Gatehouse (Likewise)

variable {α : Type}

/-- A question that reads no looks gets the same answer. -/
theorem ask_reads_likewise (q : Metadata.Request) {read : Metadata → α}
    (hread : ∀ (m : Metadata) looks, read { m with lookups := looks } = read m) :
    Steady Likewise (ask do Metadata.available q; return read (← get)) := by
  rintro ⟨m, verifiers⟩ _ ⟨⟨looks, rfl⟩, hopen⟩
  simp only [ask, Metadata.reads_run, hread]
  by_cases hdown : m.down.contains q
  · simp only [if_pos hdown]
    exact .error _ ⟨⟨looks, rfl⟩, hopen⟩
  · simp only [if_neg hdown]
    exact .ok rfl ⟨⟨looks, rfl⟩, hopen⟩

/-- Whoever looks at a dataset sees the same. -/
theorem dataset_likewise (id : DatasetId) (user user' : String) :
    Alike Likewise Eq (ask (Metadata.dataset id user)) (ask (Metadata.dataset id user')) := by
  rintro ⟨m, verifiers⟩ _ ⟨⟨looks, rfl⟩, hopen⟩
  have hmay : ∀ who, m.restrictedTo.any (· ≠ who) = false := fun who => by
    rw [hopen, Option.any_none]
  simp only [ask, Metadata.dataset_run, hmay, Bool.false_eq_true, if_false]
  by_cases hdown : m.down.contains .dataset
  · simp only [if_pos hdown]
    exact .error _ ⟨⟨looks, rfl⟩, hopen⟩
  · simp only [if_neg hdown]
    exact .ok rfl ⟨⟨_, rfl⟩, hopen⟩

/-- A part is checked likewise whoever asks. -/
theorem verify_likewise (app : ApplicationId) (s : Subject) :
    Steady Likewise (Gate.verify app s) := by
  rintro ⟨m, verifiers⟩ _ ⟨⟨looks, rfl⟩, hopen⟩
  simp only [Gate.verify]
  generalize (VerifierRegistry.verify app s).run verifiers = found
  obtain ⟨verdict, verifiers'⟩ := found
  cases verdict with
  | ok _ => exact .ok rfl ⟨⟨looks, rfl⟩, hopen⟩
  | error f => exact .error _ ⟨⟨looks, rfl⟩, hopen⟩

/-- The identities that look need not be the same. -/
theorem authorizingUser_likewise (scope : String) (owner : Option Principal)
    (requester requester' : String) :
    Alike Likewise (fun _ _ => True) (authorizingUser scope owner requester)
      (authorizingUser scope owner requester') := by
  cases owner with
  | some o => exact Alike.pure trivial
  | none =>
    refine Alike.bind (ask_reads_likewise .impersonation fun _ _ => rfl) fun p _ heq => ?_
    subst heq
    cases p with
    | some p => exact Alike.pure trivial
    | none => exact Alike.pure trivial

/-- An owner is checked likewise whoever asks. -/
theorem verifyOwner_likewise (e : EntityId) (requested : Option Principal) :
    Steady Likewise (verifyOwner e requested) :=
  Steady.bind (ask_reads_likewise .owner fun _ _ => rfl) fun _ => Steady.refuse _

end Gate

namespace Deployable

open Gate Gatehouse

variable (d : Deployable)

/-- The gate of the version decides likewise whoever asks. -/
theorem versionGate_likewise : Steady Likewise d.versionGate :=
  Steady.bind (ask_reads_likewise .versions fun _ _ => rfl) fun _ =>
    Alike.ite (verifyOwner_likewise _ _) (Steady.pure ())

/-- The gate of a dataset decides likewise for all that may look. -/
theorem datasetGate_likewise (user user' : String) (s : DatasetSpec) :
    Alike Likewise Eq (d.datasetGate user s) (d.datasetGate user' s) := by
  refine Alike.bind (verify_likewise d.id (.dataset s)) fun _ _ _ =>
    Alike.bind (dataset_likewise _ user user') fun found _ heq => ?_
  subst heq
  cases found with
  | none => exact Steady.pure ()
  | some existing => exact Steady.refuseFirst _ (verifyOwner_likewise _ _)

/-- The gates go alike whoever asks and wherever the archive lies. -/
theorem approve_likewise (archive requester : String) :
    let d' := { d with archive := archive, requester := requester }
    Alike Likewise (fun e e' => e = d ∧ e' = d') d.approve d'.approve := by
  intro d'
  have hgates : Alike Likewise Eq d.passGates d'.passGates :=
    Alike.bind d.ownerGate_steady fun _ _ _ => Alike.bind d.versionGate_likewise fun _ _ _ =>
      Alike.bind (verify_likewise d.id (.application d.spec)) fun _ _ _ =>
        Alike.bind (authorizingUser_likewise d.scope d.owner d.requester requester)
          fun user user' _ =>
          Alike.bind (Alike.forM fun s _ => d.datasetGate_likewise user user' s) fun _ _ _ =>
            Alike.bind (Steady.forM fun p _ => verify_likewise d.id (.program p.2)) fun _ _ _ =>
              Alike.bind (Steady.forM fun w _ => d.workflowGate_steady w) fun _ _ _ =>
                Steady.forM fun s _ => Steady.refuse _
  exact Alike.bind hgates fun _ _ _ => Alike.pure ⟨rfl, rfl⟩

end Deployable

end Deployment
