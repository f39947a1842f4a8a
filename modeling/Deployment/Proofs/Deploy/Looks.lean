import Deployment.Proofs.Deploy.Ownership
import Deployment.Proofs.Verification.Looking

/-! # Looks of deployments

Of the stages of a deployment only the verification looks at datasets. So whatever becomes of the
deployment, all its looks are those of one identity.

* **`Metadata.LooksAway`** — a change that looks at no dataset, such as a registration.
* **`Deployable.verify_looks`** — the looks of a verification.
* **`DeployJob.run_looks`** — the looks of a deployment, and as whom they are taken. -/

namespace Deployment

open Stateful

/-! ## Changes that look at nothing -/

namespace Metadata

variable {α β : Type}

/-- A change that looks at no dataset. -/
def LooksAway (x : Change α) : Prop := ∀ m, (finalState x m).lookups = m.lookups

namespace LooksAway

/-- Giving a value looks at nothing. -/
theorem pure (a : α) : LooksAway (Pure.pure a) := fun _ => rfl

/-- What looks away does so one after the other. -/
theorem bind {x : Change α} {f : α → Change β} (hx : LooksAway x) (hf : ∀ a, LooksAway (f a)) :
    LooksAway (x >>= f) :=
  fun m => finalState_bind_induct (P := fun m' : Metadata => m'.lookups = m.lookups) (hx m)
    fun a m' _ h =>
    (hf a m').trans h

/-- What looks away for each of a list does so for all of them. -/
theorem forM {l : List α} {f : α → Change Unit} (hf : ∀ a, LooksAway (f a)) :
    LooksAway (l.forM f) := by
  induction l with
  | nil => exact pure ()
  | cons a rest ih => exact bind (hf a) fun _ => ih

end LooksAway

end Metadata

namespace Deployable

open Metadata

variable (d : Deployable)

/-- An owner is set without a look. -/
theorem own_looksAway (e : EntityId) : LooksAway (d.own e) := by
  intro m
  by_cases hdown : d.owner.isSome ∧ m.down.contains .setOwner
  · simp only [finalState, own_run, if_pos hdown]
  · simp only [finalState, own_run, if_neg hdown, taking]
    split <;> rfl

/-- A dataset is created without a look. -/
theorem createDataset_looksAway (s : DatasetSpec) : LooksAway (d.createDataset s) := by
  intro m
  simp only [finalState, createDataset, addDataset_run]
  by_cases hdown : m.down.contains .addDataset
  · simp only [if_pos hdown]
  · by_cases hthere : m.hasDataset (d.id.dataset s.name)
    · simp only [if_neg hdown, if_pos hthere]
    · simp only [if_neg hdown, if_neg hthere]
      exact d.own_looksAway _ _

/-- A registration looks at no dataset. -/
theorem register_looksAway : LooksAway d.register := by
  refine .bind (.forM d.createDataset_looksAway) fun _ => .bind (fun m => ?_) fun _ =>
    .bind (fun m => ?_) fun _ => .bind (d.own_looksAway _) fun _ => .pure _
  · simp only [finalState, application, reads_run]
    by_cases hdown : m.down.contains .application
    · simp only [if_pos hdown]
    · simp only [if_neg hdown]
  · by_cases hdown : m.down.contains .addApplication
    · simp only [finalState, addApplication_run, if_pos hdown]
    · simp only [finalState, addApplication_run, if_neg hdown]

/-- Only the verification looks at datasets. -/
theorem verify_looks (m : Metadata) :
    ∃ looks, (finalState d.verify m).lookups = m.lookups ++ looks ∧
      ∀ l ∈ looks, l.principal = m.actor d.scope d.owner d.requester := by
  obtain ⟨looks, hfront, hleft, -⟩ :=
    d.approve_takes (g := ⟨m, .empty⟩) VerifierRegistry.faithful_empty
  refine ⟨looks, ?_, fun l hl => ?_⟩
  · have hmetadata : finalState d.verify m = (finalState d.approve ⟨m, .empty⟩).metadata := by
      simp only [finalState, verify]
      cases d.approve ⟨m, .empty⟩ <;> rfl
    rw [hmetadata, hleft]
  · obtain ⟨s, -, rfl⟩ := List.mem_map.1 (hfront.subset hl)
    rfl

end Deployable

/-- A deployment looks at datasets as the owner that is asked for, else as who acts for the
namespace of the account, else as its requester. -/
theorem DeployJob.run_looks (job : DeployJob) (t : FileTree) (m : Metadata) :
    ∃ looks, (finalState (job.run t) m).lookups = m.lookups ++ looks ∧
      ∀ l ∈ looks, l.principal = m.actor job.account.name job.owner job.requester := by
  cases hload : job.load t with
  | error f =>
    refine ⟨[], ?_, fun _ hl => nomatch hl⟩
    rw [run, hload, List.append_nil]
    rfl
  | ok d =>
    obtain ⟨looks, hleft, hwho⟩ := d.verify_looks m
    refine ⟨looks, ?_, ?_⟩
    · rw [run_of_load hload]
      refine finalState_bind_induct (P := fun m' : Metadata => m'.lookups = m.lookups ++ looks)
        hleft fun d' m' _ h => ?_
      rw [d'.finalState_store, d'.register_looksAway, h]
    · obtain ⟨spec, -, rfl⟩ := load_eq_ok hload
      exact hwho

end Deployment
