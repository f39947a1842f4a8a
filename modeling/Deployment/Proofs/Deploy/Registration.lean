import Deployment.Deploy.Registration
import Deployment.Proofs.Verification.Gates

/-! # What a registration changes

A registration goes through its datasets, then stores the application, and may stop at any of its
requests. However far it comes, it only adds.

* **`Deployable.Extends`** — metadata in which some of an application was registered.
* **`Metadata.Tidy`** — nobody owns what is not there.
* **`Deployable.Owns`** — what is new belongs to the owner that was asked for.
* **`Deployable.Registers`** — a part of a registration.
* **`Deployable.register_registers`** — the registration as a whole.
* **`Deployable.register_eq_ok`** — what it has done where it succeeds. -/

namespace Deployment

open Stateful

namespace Metadata

/-- Nobody owns what is not there. -/
def Tidy (m : Metadata) : Prop := ∀ e, ¬ m.Has e → m.ownerOf e = none

/-- Owning something is a request of its own. -/
theorem setOwner_run (e : EntityId) (o : Principal) (m : Metadata) :
    setOwner e o m =
      if m.down.contains .setOwner then .error (.unavailable Request.setOwner.name) m
      else .ok () { m with owners := Keyed.put e o m.owners } := by
  rw [setOwner, run_bind, available_run]
  by_cases hdown : m.down.contains .setOwner
  · simp only [if_pos hdown]
  · simp only [if_neg hdown, run_modify]

/-- A version is stored, in the place of an earlier one of its identity, if the request is
available. -/
theorem addApplication_run (a : StoredApplication) (m : Metadata) :
    addApplication a m =
      if m.down.contains .addApplication then
        .error (.unavailable Request.addApplication.name) m
      else .ok () { m with applications := Keyed.put a.id a m.applications } := by
  rw [addApplication, run_bind, available_run]
  by_cases hdown : m.down.contains .addApplication
  · simp only [if_pos hdown]
  · simp only [if_neg hdown, run_modify]

/-- A dataset is added if the request is available and no dataset of its identity exists. -/
theorem addDataset_run (id : DatasetId) (spec : DatasetInstance) (owner : Option Principal)
    (m : Metadata) :
    addDataset id spec owner m =
      if m.down.contains .addDataset then .error (.unavailable Request.addDataset.name) m
      else if m.hasDataset id then .error (.alreadyExists (.dataset id)) m
      else .ok () { m with datasets := Keyed.put id ⟨spec, owner⟩ m.datasets } := by
  rw [addDataset, run_bind, available_run]
  by_cases hdown : m.down.contains .addDataset
  · simp only [if_pos hdown]
  · simp only [if_neg hdown, run_bind, run_get, run_ite, run_throw, run_modify]

/-- A dataset exists exactly if it is found. -/
theorem hasDataset_iff (m : Metadata) (id : DatasetId) :
    m.hasDataset id ↔ ∃ x, Keyed.find? id m.datasets = some x :=
  Option.isSome_iff_exists

end Metadata

namespace Deployable

/-- The version as it is stored. -/
def record (d : Deployable) : StoredApplication := ⟨d.id, d.spec, d.archive, d.owner⟩

/-- Metadata in which some of an application was registered: every entry is as before, or it is the
stored version, or a declared dataset that is new; and an owner has changed only to the one that is
asked for, of the application or of what is new. -/
structure Extends (d : Deployable) (m m' : Metadata) : Prop where
  applications : ∀ id, Keyed.find? id m'.applications = Keyed.find? id m.applications ∨
    id = d.id ∧ Keyed.find? id m'.applications = some d.record
  datasets : ∀ id, Keyed.find? id m'.datasets = Keyed.find? id m.datasets ∨
    Keyed.find? id m.datasets = none ∧ ∃ s ∈ d.spec.datasets.values,
      id = d.id.dataset s.name ∧ Keyed.find? id m'.datasets = some ⟨s.toInstance, d.owner⟩
  owners : ∀ e, m'.ownerOf e = m.ownerOf e ∨
    m'.ownerOf e = d.owner ∧ m'.Has e ∧ (e = .application d.id.ref ∨ ¬ m.Has e)
  impersonation : m'.impersonation = m.impersonation
  restrictedTo : m'.restrictedTo = m.restrictedTo
  down : m'.down = m.down

/-- What is new belongs to the owner that was asked for. -/
def Owns (d : Deployable) (m m' : Metadata) : Prop :=
  ∀ e, m'.Has e → ¬ m.Has e → m'.ownerOf e = d.owner

variable {d : Deployable} {m m' m'' : Metadata} {α β : Type}

namespace Extends

/-- Nothing was registered, and everything is as before. -/
@[refl] theorem refl (m : Metadata) : d.Extends m m where
  applications _ := .inl rfl
  datasets _ := .inl rfl
  owners _ := .inl rfl
  impersonation := rfl
  restrictedTo := rfl
  down := rfl

/-- A version that is stored stays stored. -/
theorem keepsVersion (h : d.Extends m m') {id : ApplicationId}
    (hid : Keyed.contains id m.applications) : Keyed.contains id m'.applications := by
  rw [Keyed.contains] at hid ⊢
  rcases h.applications id with heq | ⟨-, heq⟩
  · rw [heq]
    exact hid
  · rw [heq]
    rfl

/-- A dataset that exists stays as it is. -/
theorem keepsDataset (h : d.Extends m m') {id : DatasetId} {x : StoredDataset}
    (hx : Keyed.find? id m.datasets = some x) : Keyed.find? id m'.datasets = some x := by
  rcases h.datasets id with heq | ⟨hnone, -⟩
  · rw [heq, hx]
  · rw [hx] at hnone
    cases hnone

/-- What is there stays there. -/
theorem has (h : d.Extends m m') {e : EntityId} (he : m.Has e) : m'.Has e := by
  cases e with
  | application ref =>
    obtain ⟨id, href, hid⟩ := he
    exact ⟨id, href, h.keepsVersion hid⟩
  | dataset id =>
    obtain ⟨x, hx⟩ := (m.hasDataset_iff id).1 he
    exact (m'.hasDataset_iff id).2 ⟨x, h.keepsDataset hx⟩

/-- What is new was asked for: the application itself, or a declared dataset. -/
theorem new (h : d.Extends m m') {e : EntityId} (he : m'.Has e) (hnew : ¬ m.Has e) :
    e = .application d.id.ref ∨ ∃ s ∈ d.spec.datasets.values, e = .dataset (d.id.dataset s.name) ∧
      Keyed.find? (d.id.dataset s.name) m'.datasets = some ⟨s.toInstance, d.owner⟩ := by
  cases e with
  | application ref =>
    obtain ⟨id, rfl, hid⟩ := he
    rcases h.applications id with heq | ⟨rfl, -⟩
    · refine absurd ⟨id, rfl, ?_⟩ hnew
      rwa [Keyed.contains, ← heq]
    · exact .inl rfl
  | dataset id =>
    rcases h.datasets id with heq | ⟨-, s, hs, rfl, heq⟩
    · refine absurd ?_ hnew
      show Keyed.contains id m.datasets = true
      rw [Keyed.contains, ← heq]
      exact he
    · exact .inr ⟨s, hs, rfl, heq⟩

/-- What was registered in two steps was registered. -/
theorem trans (h : d.Extends m m') (h' : d.Extends m' m'') : d.Extends m m'' where
  applications id := by
    rcases h'.applications id with heq | hnew
    · rw [heq]
      exact h.applications id
    · exact .inr hnew
  datasets id := by
    rcases h'.datasets id with heq | ⟨hnone, hnew⟩
    · rw [heq]
      exact h.datasets id
    · refine .inr ⟨?_, hnew⟩
      -- Were it there before the second run, the first would have kept it.
      cases hx : Keyed.find? id m.datasets with
      | none => rfl
      | some x =>
        rw [h.keepsDataset hx] at hnone
        cases hnone
  owners e := by
    rcases h'.owners e with heq | ⟨howner, hhas, hfree⟩
    · rw [heq]
      refine (h.owners e).imp_right ?_
      rintro ⟨howner, hhas, hfree⟩
      exact ⟨howner, h'.has hhas, hfree⟩
    · exact .inr ⟨howner, hhas, hfree.imp_right fun hnot he => hnot (h.has he)⟩
  impersonation := h'.impersonation.trans h.impersonation
  restrictedTo := h'.restrictedTo.trans h.restrictedTo
  down := h'.down.trans h.down

/-- Still nobody owns what is not there. -/
theorem tidy (h : d.Extends m m') (ht : m.Tidy) : m'.Tidy := by
  intro e hnot
  rcases h.owners e with heq | ⟨-, hhas, -⟩
  · rw [heq]
    exact ht e fun he => hnot (h.has he)
  · exact absurd hhas hnot

/-- Who looks at datasets does not change. -/
theorem actor (h : d.Extends m m') (scope : String) (owner : Option Principal)
    (requester : String) : m'.actor scope owner requester = m.actor scope owner requester := by
  simp only [Metadata.actor, h.impersonation]

end Extends

/-- What is new belongs to the owner after both of two changes. -/
theorem Owns.trans (h : d.Owns m m') (h' : d.Owns m' m'') (hx : d.Extends m' m'') :
    d.Owns m m'' := by
  intro e he hnew
  by_cases hmid : m'.Has e
  · rcases hx.owners e with heq | ⟨howner, -⟩
    · rw [heq]
      exact h e hmid hnew
    · exact howner
  · exact h' e he hmid

/-! ## The parts of a registration -/

/-- A part of a registration: it only adds, what it adds belongs to the owner unless the owner
could not be set, and it succeeds where every request is available. -/
structure Registers (d : Deployable) (x : Metadata.Change α) : Prop where
  extending : ∀ m, d.Extends m (finalState x m)
  owning : ∀ m, m.Tidy → (∀ m', x m ≠ .error (.unavailable Metadata.Request.setOwner.name) m') →
    d.Owns m (finalState x m)
  succeeding : ∀ m : Metadata, m.down = [] → ∃ a m', x m = .ok a m'

namespace Registers

/-- Giving a value registers nothing. -/
theorem pure (a : α) : d.Registers (Pure.pure a : Metadata.Change α) where
  extending _ := .refl _
  owning _ _ _ _ he hnew := absurd he hnew
  succeeding m _ := ⟨a, m, rfl⟩

/-- Two parts of a registration, one after the other, are a part of it. -/
theorem bind {x : Metadata.Change α} {f : α → Metadata.Change β} (hx : d.Registers x)
    (hf : ∀ a, d.Registers (f a)) : d.Registers (x >>= f) where
  extending m :=
    finalState_bind_induct (hx.extending m) fun a m' _ h => h.trans ((hf a).extending m')
  owning m ht hset := by
    have hext := hx.extending m
    have hfirst := hx.owning m ht
    rw [finalState_bind]
    simp only [run_bind] at hset
    cases hrun : x m with
    | error f m' =>
      simp only [hrun] at hset hfirst
      rw [finalState_of_error hrun] at hfirst
      refine hfirst fun m₁ heq => ?_
      cases heq
      exact hset m' rfl
    | ok a m' =>
      simp only [hrun] at hset hfirst
      rw [finalState_of_ok hrun] at hfirst hext
      have hsecond := (hf a).owning m' (hext.tidy ht) hset
      -- the first part succeeded, so that it set every owner that it had to set
      exact (hfirst fun _ h => nomatch h).trans hsecond ((hf a).extending m')
  succeeding m hdown := by
    obtain ⟨a, m', hrun⟩ := hx.succeeding m hdown
    have hext := hx.extending m
    rw [finalState_of_ok hrun] at hext
    obtain ⟨b, m'', hrun'⟩ := (hf a).succeeding m' (hext.down.trans hdown)
    refine ⟨b, m'', ?_⟩
    rw [run_bind, hrun]
    exact hrun'

/-- A part for every one of a list. -/
theorem forM {l : List α} {f : α → Metadata.Change Unit} (hf : ∀ a ∈ l, d.Registers (f a)) :
    d.Registers (l.forM f) := by
  induction l with
  | nil => exact pure ()
  | cons a rest ih =>
    have hrest := ih fun b hb => hf b (List.mem_cons_of_mem a hb)
    show d.Registers (f a >>= fun _ => rest.forM f)
    exact bind (hf a List.mem_cons_self) fun _ => hrest

end Registers

/-! ## Owners -/

/-- The metadata in which the owner that is asked for owns an entity. -/
def taking (d : Deployable) (e : EntityId) (m : Metadata) : Metadata :=
  match d.owner with
  | some o => { m with owners := Keyed.put e o m.owners }
  | none => m

/-- An entity is taken for the owner that is asked for, unless there is one and it cannot be set. -/
theorem own_run (d : Deployable) (e : EntityId) (m : Metadata) :
    d.own e m =
      if d.owner.isSome ∧ m.down.contains .setOwner then
        .error (.unavailable Metadata.Request.setOwner.name) m
      else .ok () (d.taking e m) := by
  cases ho : d.owner with
  | none => simp [own, taking, ho, run_pure]
  | some o => simp [own, taking, ho, Metadata.setOwner_run]

/-- Where every request is available, an entity is taken. -/
theorem own_of_available (d : Deployable) (e : EntityId) (hdown : m.down = []) :
    d.own e m = .ok () (d.taking e m) := by
  rw [own_run, hdown]
  exact if_neg fun hboth => nomatch hboth.2

/-- What is taken has the owner that is asked for, if one is; everything else has its own. -/
theorem ownerOf_taking (d : Deployable) (e e' : EntityId) (m : Metadata) :
    (d.taking e m).ownerOf e' =
      if e = e' ∧ d.owner.isSome then d.owner else m.ownerOf e' := by
  cases ho : d.owner with
  | none => simp [taking, ho]
  | some o => simp [taking, ho, Metadata.ownerOf]

/-- Taking an entity creates none. -/
@[simp] theorem has_taking (d : Deployable) (e e' : EntityId) (m : Metadata) :
    (d.taking e m).Has e' ↔ m.Has e' := by
  cases ho : d.owner with
  | none => simp only [taking, ho]
  | some o =>
    simp only [taking, ho]
    cases e' <;> rfl

/-- One entity was added, or stored once more, and its owner was not yet set. -/
structure Adds (d : Deployable) (e : EntityId) (m m' : Metadata) : Prop where
  extending : d.Extends m m'
  owners : m'.owners = m.owners
  there : m'.Has e
  only : ∀ e', m'.Has e' → e' = e ∨ m.Has e'
  free : e = .application d.id.ref ∨ ¬ m.Has e

namespace Adds

variable {e : EntityId}

/-- What was added may be taken, as part of its registration. -/
theorem taking_extends (h : d.Adds e m m') : d.Extends m (d.taking e m') where
  applications id := by
    have := h.extending.applications id
    cases ho : d.owner <;> simpa only [taking, ho] using this
  datasets id := by
    have := h.extending.datasets id
    cases ho : d.owner <;> simpa only [taking, ho] using this
  owners e' := by
    rw [ownerOf_taking, has_taking]
    -- The owner is put on the entity just added and on nothing else.
    by_cases heq : e = e' ∧ d.owner.isSome
    · rw [if_pos heq]
      exact .inr ⟨rfl, heq.1 ▸ h.there, heq.1 ▸ h.free⟩
    · rw [if_neg heq, Metadata.ownerOf, h.owners]
      exact .inl rfl
  impersonation := by
    have := h.extending.impersonation
    cases ho : d.owner <;> simpa only [taking, ho] using this
  restrictedTo := by
    have := h.extending.restrictedTo
    cases ho : d.owner <;> simpa only [taking, ho] using this
  down := by
    have := h.extending.down
    cases ho : d.owner <;> simpa only [taking, ho] using this

/-- So it may where the owner cannot be set. -/
theorem own_extends (h : d.Adds e m m') : d.Extends m (finalState (d.own e) m') := by
  simp only [finalState, own_run]
  by_cases hfault : d.owner.isSome ∧ m'.down.contains .setOwner
  · simp only [if_pos hfault]
    exact h.extending
  · simp only [if_neg hfault]
    exact h.taking_extends

/-- Once its owner is set, what is new belongs to the owner that is asked for; before, nobody owned
it. -/
theorem taking_owns (h : d.Adds e m m') (ht : d.owner.isSome ∨ m.Tidy) :
    d.Owns m (d.taking e m') := by
  intro e' he' hnew
  rw [has_taking] at he'
  have heq : e' = e := (h.only e' he').resolve_right hnew
  subst heq
  rw [ownerOf_taking]
  by_cases hsome : d.owner.isSome
  · rw [if_pos ⟨rfl, hsome⟩]
  · rw [if_neg fun hboth => hsome hboth.2, Metadata.ownerOf, h.owners]
    rw [Option.not_isSome_iff_eq_none.1 hsome]
    exact ht.resolve_left hsome e' hnew

/-- If its owner could be set, what is new belongs to the owner that is asked for. -/
theorem own_owns (h : d.Adds e m m') (ht : m.Tidy)
    (hset : ∀ m₁, d.own e m' ≠ .error (.unavailable Metadata.Request.setOwner.name) m₁) :
    d.Owns m (finalState (d.own e) m') := by
  simp only [finalState, own_run] at hset ⊢
  by_cases hfault : d.owner.isSome ∧ m'.down.contains .setOwner
  · simp only [if_pos hfault] at hset
    exact absurd rfl (hset m')
  · simp only [if_neg hfault]
    exact h.taking_owns (.inr ht)

end Adds

/-! ## The parts of a registration, one by one -/

/-- A declared dataset is added and taken, unless it exists. -/
theorem createDataset_run (d : Deployable) (s : DatasetSpec) (m : Metadata) :
    d.createDataset s m =
      if m.down.contains .addDataset then
        .error (.unavailable Metadata.Request.addDataset.name) m
      else if m.hasDataset (d.id.dataset s.name) then .ok () m
      else d.own (.dataset (d.id.dataset s.name))
        { m with
          datasets := Keyed.put (d.id.dataset s.name) ⟨s.toInstance, d.owner⟩ m.datasets } := by
  rw [createDataset]
  simp only [Metadata.addDataset_run]
  by_cases hdown : m.down.contains .addDataset
  · simp only [if_pos hdown]
  · by_cases hhas : m.hasDataset (d.id.dataset s.name)
    · simp only [if_neg hdown, if_pos hhas]
    · simp only [if_neg hdown, if_neg hhas]

/-- A declared dataset that is not there can be added. -/
theorem adds_dataset {s : DatasetSpec} (hs : s ∈ d.spec.datasets.values)
    (hnew : ¬ m.hasDataset (d.id.dataset s.name)) :
    d.Adds (.dataset (d.id.dataset s.name)) m
      { m with
        datasets := Keyed.put (d.id.dataset s.name) ⟨s.toInstance, d.owner⟩ m.datasets } where
  extending := by
    refine { Extends.refl m with datasets := fun id => ?_, owners := fun e => .inl rfl }
    rw [Keyed.find?_put]
    -- There was none under this name, so what is found there now is the new one.
    by_cases heq : d.id.dataset s.name = id
    · subst heq
      rw [if_pos rfl]
      exact .inr ⟨Option.not_isSome_iff_eq_none.1 hnew, s, hs, rfl, rfl⟩
    · rw [if_neg heq]
      exact .inl rfl
  owners := rfl
  there := by simp [Metadata.Has, Metadata.hasDataset, Keyed.contains]
  only e' he' := by
    cases e' with
    | application ref => exact .inr he'
    | dataset id =>
      by_cases heq : d.id.dataset s.name = id
      · exact .inl (heq ▸ rfl)
      · refine .inr ?_
        simpa [Metadata.Has, Metadata.hasDataset, Keyed.contains, heq] using he'
  free := .inr hnew

/-- The application can be stored, the first time or once more. -/
theorem adds_application (d : Deployable) (m : Metadata) :
    d.Adds (.application d.id.ref) m
      { m with applications := Keyed.put d.id d.record m.applications } where
  extending := by
    refine { Extends.refl m with applications := fun id => ?_, owners := fun e => .inl rfl }
    rw [Keyed.find?_put]
    by_cases heq : d.id = id
    · rw [if_pos heq]
      exact .inr ⟨heq.symm, rfl⟩
    · rw [if_neg heq]
      exact .inl rfl
  owners := rfl
  there := ⟨d.id, rfl, by simp [Keyed.contains]⟩
  only e' he' := by
    cases e' with
    | dataset id => exact .inr he'
    | application ref =>
      obtain ⟨id, rfl, hid⟩ := he'
      by_cases heq : d.id = id
      · exact .inl (heq ▸ rfl)
      · refine .inr ⟨id, rfl, ?_⟩
        simpa [Keyed.contains, heq] using hid
  free := .inl rfl

/-- To create a declared dataset is a part of the registration. -/
theorem createDataset_registers {s : DatasetSpec} (hs : s ∈ d.spec.datasets.values) :
    d.Registers (d.createDataset s) where
  extending m := by
    simp only [finalState, createDataset_run]
    by_cases hdown : m.down.contains .addDataset
    · simp only [if_pos hdown, Extends.refl]
    · -- A dataset that exists already is left alone, with whatever owner it has.
      by_cases hhas : m.hasDataset (d.id.dataset s.name)
      · simp only [if_neg hdown, if_pos hhas, Extends.refl]
      · simp only [if_neg hdown, if_neg hhas]
        exact (adds_dataset hs hhas).own_extends
  owning m ht hset := by
    simp only [finalState, createDataset_run] at hset ⊢
    by_cases hdown : m.down.contains .addDataset
    · simp only [if_pos hdown]
      exact fun e he hnew => absurd he hnew
    · by_cases hhas : m.hasDataset (d.id.dataset s.name)
      · simp only [if_neg hdown, if_pos hhas]
        exact fun e he hnew => absurd he hnew
      · simp only [if_neg hdown, if_neg hhas] at hset ⊢
        exact (adds_dataset hs hhas).own_owns ht hset
  succeeding m hdown := by
    rw [createDataset_run, if_neg (by simp [hdown])]
    by_cases hhas : m.hasDataset (d.id.dataset s.name)
    · exact ⟨(), m, if_pos hhas⟩
    · rw [if_neg hhas]
      exact ⟨(), _, own_of_available d _ hdown⟩

/-- A request that leaves everything as it is. -/
theorem Registers.of_unchanged {x : Metadata.Change α} (hsame : ∀ m, finalState x m = m)
    (hok : ∀ m : Metadata, m.down = [] → ∃ a m', x m = .ok a m') : d.Registers x where
  extending m := by rw [hsame]
  owning m _ _ e he hnew := by
    rw [hsame] at he
    exact absurd he hnew
  succeeding := hok

/-- To look for a version is a part of the registration, and changes nothing. -/
theorem application_registers (d : Deployable) (id : ApplicationId) :
    d.Registers (Metadata.application id) := by
  refine Registers.of_unchanged (fun m => ?_) fun m hdown => ?_
  · simp only [finalState, Metadata.application, Metadata.reads_run]
    by_cases hdown : m.down.contains .application
    · simp only [if_pos hdown]
    · simp only [if_neg hdown]
  · refine ⟨Keyed.find? id m.applications, m, ?_⟩
    rw [Metadata.application, Metadata.reads_run, hdown]
    rfl

/-- Storing the application with its owner. -/
theorem addApplication_registers (d : Deployable) :
    d.Registers do
      Metadata.addApplication d.record
      d.own (.application d.id.ref) where
  extending m := by
    rw [finalState_bind, Metadata.addApplication_run]
    by_cases hdown : m.down.contains .addApplication
    · simp only [if_pos hdown, Extends.refl]
    · simp only [if_neg hdown]
      exact (d.adds_application m).own_extends
  owning m ht hset := by
    rw [finalState_bind]
    simp only [run_bind, Metadata.addApplication_run] at hset ⊢
    by_cases hdown : m.down.contains .addApplication
    · simp only [if_pos hdown]
      exact fun e he hnew => absurd he hnew
    · simp only [if_neg hdown] at hset ⊢
      exact (d.adds_application m).own_owns ht hset
  succeeding m hdown := by
    rw [run_bind, Metadata.addApplication_run, if_neg (by simp [hdown])]
    exact ⟨(), _, own_of_available d _ hdown⟩

/-- The registration as a whole. -/
theorem register_registers (d : Deployable) : d.Registers d.register := by
  have hdatasets : d.Registers (d.spec.datasets.values.forM d.createDataset) :=
    Registers.forM fun s hs => createDataset_registers hs
  have hstore : d.Registers do
      Metadata.addApplication d.record
      d.own (.application d.id.ref)
      return (⟨d.id, d.spec, d.archive, d.programList⟩ : Deployed) := by
    rw [← bind_assoc]
    exact d.addApplication_registers.bind fun _ => Registers.pure _
  exact hdatasets.bind fun _ => (d.application_registers d.id).bind fun _ => hstore

/-! ## Registrations that succeed -/

/-- An entity that was taken has its owner. -/
theorem own_ok {e : EntityId} (h : d.own e m = .ok () m') : m' = d.taking e m := by
  rw [own_run] at h
  by_cases hfault : d.owner.isSome ∧ m.down.contains .setOwner
  · rw [if_pos hfault] at h
    cases h
  · rw [if_neg hfault] at h
    cases h
    rfl

/-- The metadata in which a declared dataset was created for the owner that is asked for. -/
def creating (d : Deployable) (s : DatasetSpec) (m : Metadata) : Metadata :=
  d.taking (.dataset (d.id.dataset s.name))
    { m with datasets := Keyed.put (d.id.dataset s.name) ⟨s.toInstance, d.owner⟩ m.datasets }

/-- A declared dataset exists and stays as it is, or it is created. -/
theorem createDataset_ok {s : DatasetSpec} (h : d.createDataset s m = .ok () m') :
    m.hasDataset (d.id.dataset s.name) ∧ m' = m ∨
      ¬ m.hasDataset (d.id.dataset s.name) ∧ m' = d.creating s m := by
  rw [createDataset_run] at h
  by_cases hdown : m.down.contains .addDataset
  · rw [if_pos hdown] at h
    cases h
  · rw [if_neg hdown] at h
    by_cases hhas : m.hasDataset (d.id.dataset s.name)
    · rw [if_pos hhas] at h
      cases h
      exact .inl ⟨hhas, rfl⟩
    · rw [if_neg hhas] at h
      exact .inr ⟨hhas, own_ok h⟩

/-- The metadata in which the application is stored for the owner that is asked for. -/
def storing (d : Deployable) (m : Metadata) : Metadata :=
  d.taking (.application d.id.ref)
    { m with applications := Keyed.put d.id d.record m.applications }

/-- What is told of the application when it is registered. -/
def deployed (d : Deployable) : Deployed := ⟨d.id, d.spec, d.archive, d.programList⟩

/-- A registration that succeeds goes through the datasets, and then stores the application. -/
theorem register_eq_ok {p : Deployed} (h : d.register m = .ok p m') :
    p = d.deployed ∧ ∃ m₁, d.spec.datasets.values.forM d.createDataset m = .ok () m₁ ∧
      m' = d.storing m₁ := by
  obtain ⟨⟨⟩, m₁, hcreated, h⟩ := run_bind_ok.1 h
  obtain ⟨previous, m₂, hlooked, h⟩ := run_bind_ok.1 h
  obtain ⟨⟨⟩, m₃, hstored, h⟩ := run_bind_ok.1 h
  obtain ⟨⟨⟩, m₄, howned, h⟩ := run_bind_ok.1 h
  rw [run_pure] at h
  cases h
  refine ⟨rfl, m₁, hcreated, ?_⟩
  -- Looking for the previous version changes nothing.
  obtain rfl : m₂ = m₁ := by
    rw [Metadata.application, Metadata.reads_run] at hlooked
    split at hlooked <;> cases hlooked
    rfl
  rw [Metadata.addApplication_run] at hstored
  split at hstored <;> cases hstored
  exact own_ok howned

end Deployable

end Deployment
