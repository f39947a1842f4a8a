import Deployment.Proofs.Session.Correspondence

/-! # How jobs end

Once a worker is done with a job, or has died over it, what became of the job stays so, and just
that is noted in the upload that asked for it, however much later.

* **`Ended`** — the job has ended in a way, for an upload.
* **`Ended.after`** — it stays so after every run.
* **`Ended.recorded`** — what is noted in the upload at last. -/

namespace Deployment

open SessionManager

/-- A job that was accepted for an upload has ended in a way. -/
structure Ended (n : Nat) (k : Ticket) (r : DeployResult) (h : List Note) (m : SessionManager) :
    Prop where
  linked : Linked h m
  numbered : k.number < m.plant.pool.stats.submitted
  result : m.ended? k.number = some r
  asked : ∀ o, (o, k) ∈ outstanding h → o = some n

namespace Ended

variable {n : Nat} {k : Ticket} {r : DeployResult} {h : List Note} {m m' : SessionManager}
  {e : Event} {notes : List Note}

/-- What became of a job that is over is as it was where the results are. -/
theorem ended?_congr {number : Nat} (hs : m.plant.pool.Settled number)
    (hs' : m'.plant.pool.Settled number)
    (hr : Keyed.find? number m'.plant.pool.results = Keyed.find? number m.plant.pool.results) :
    m'.ended? number = m.ended? number := by
  simp only [ended?, Pool.state_of_settled hs, Pool.state_of_settled hs', hr]

/-- A job stays as it has ended while workers go on with others. -/
theorem keep (hk : Ended n k r h m) (hl : Linked (h ++ notes) m')
    (hw : m.plant.pool.Works m'.plant.pool)
    (ho : ∀ o, (o, k) ∈ outstanding (h ++ notes) → (o, k) ∈ outstanding h) :
    Ended n k r (h ++ notes) m' where
  linked := hl
  numbered := hw.submitted.symm ▸ hk.numbered
  result := by
    have hover := Linked.settled_of_ended hk.result
    exact (ended?_congr hover (fun t ht => hover t (hw.unfinished.subset ht))
      (hw.results _ hover)).trans hk.result
  asked o hm := hk.asked o (ho o hm)

/-- A job stays as it has ended. -/
theorem step (hk : Ended n k r h m) (he : Effect m e m' notes) : Ended n k r (h ++ notes) m' := by
  have hl := hk.linked.step he
  cases he with
  | nothing => exact hk.keep hl (.refl _) (by simp)
  | worked pool => exact hk.keep hl pool (by simp)
  | files t => exact hk.keep hl (.refl _) (by simp)
  | outage => exact hk.keep hl (.refl _) (by simp)
  | registered => exact hk.keep hl (.refl _) (by simp)
  | unprepared => exact hk.keep hl (.refl _) (by simp)
  | accepted => exact hk.keep hl (.refl _) (by simp [outstanding_append, Note.open])
  | discarded => exact hk.keep hl (.refl _) (by simp)
  -- A job handed in now gets a number of its own, so what is kept under `k.number` stays.
  | @submitted a now n' u t p number current may closed taken =>
    obtain ⟨hnumber, hqueue, hrunning, hresults, hcount⟩ := Pool.submit_ok taken
    have hover := Linked.settled_of_ended hk.result
    have hne : number ≠ k.number := hnumber ▸ Nat.ne_of_gt hk.numbered
    have hp : p.unfinished = m.plant.pool.unfinished ++ [⟨number, u.job⟩] := by
      simp [Pool.unfinished, hqueue, hrunning]
    refine ⟨hl, ?_, ?_, fun o ho => ?_⟩
    · show k.number < p.stats.submitted
      exact hcount ▸ Nat.lt_succ_of_lt (hnumber ▸ hk.numbered)
    · refine (ended?_congr hover ?_ ?_).trans hk.result
      · intro t' ht'
        rcases List.mem_append.1 (hp ▸ ht') with ht' | ht'
        · exact hover t' ht'
        · obtain rfl := List.mem_singleton.1 ht'
          exact hne
      · exact congrArg (Keyed.find? k.number) hresults
    · rw [outstanding_append] at ho
      rcases List.mem_append.1 ho with ho | ho
      · exact hk.asked o ho
      · obtain ⟨-, rfl⟩ := Prod.mk.inj (List.mem_singleton.1 ho)
        exact absurd rfl hne
  | failed current may left pool => exact hk.keep hl pool (by simp)
  -- An end that is recorded only takes a job off those outstanding.
  | recorded =>
    refine hk.keep hl (.refl _) fun o ho => ?_
    rw [outstanding_append] at ho
    exact (List.mem_filter.1 ho).1
  | recordedNowhere pending ended nobody => exact (hk.linked.not_nowhere pending nobody).elim

/-- A job stays as it has ended after every run. -/
theorem after (hk : Ended n k r h m) (es : List Event) :
    Ended n k r (h ++ m.journal es) (m.after es) :=
  after_induct_all (fun _ m e hk => hk.step (effect e m)) es hk

/-- If the end of a job is still to be noted, it is noted in the upload that asked for the job. -/
theorem recorded (hk : Ended n k r h m) (hp : k ∈ m.pending) (now : Timestamp) :
    ∃ u : Upload, ((Event.record k now).step m).uploads[n]? = some (u.endedWith r) := by
  have hn : Note.recorded k r ∈ (Event.record k now).notes m := by
    simp [Event.notes, Event.ends, hp, hk.result]
  obtain ⟨n', u, ho, -, -, -, hu, -⟩ := hk.linked.recorded_in_its_upload hn
  obtain rfl : n' = n := Option.some.inj (hk.asked _ ho)
  exact ⟨u, hu⟩

end Ended

end Deployment
