import Deployment.Proofs.Deploy.Registration
import Deployment.Proofs.Verification.Requirements
import Deployment.Proofs.Verification.Walk

/-! # The kinds of programs

A program states its kind, and so does the map that it is declared in. The check of a workflow
believes the map, registration believes the program, and the verifier of a program is the one for
the kind that it states. So no gate ties the two kinds together, and what is registered is what
was declared exactly if they agree.

* **`ApplicationSpec.KindsMatch`** — every program states the kind of its map.
* **`ApplicationSpec.declared`** — the names with the kinds of their maps.
* **`ApplicationSpec.rekinded`** — other kinds for the same programs.
* **`Deployable.requirements_rekinded`** — no requirement asks for the kind of a program.
* **`registers_declared_iff`** — what is registered is what was declared exactly if kinds match. -/

namespace Deployment

open Stateful

namespace ApplicationSpec

variable (a : ApplicationSpec)

/-! ## What is declared -/

/-- Every program states the kind of the map that it is declared in. -/
def KindsMatch : Prop :=
  (∀ e ∈ a.mapReduce.entries, e.2.kind = .mapReduce) ∧ ∀ e ∈ a.spark.entries, e.2.kind = .spark

/-- It can be decided whether every entry states its kind. -/
instance : Decidable a.KindsMatch := inferInstanceAs (Decidable (_ ∧ _))

/-- Everything that runs, with the kind of the map that declares it. -/
def declared : List (ProgramKind × String) :=
  a.mapReduce.keys.map (.mapReduce, ·) ++ a.spark.keys.map (.spark, ·) ++
    a.workflows.keys.map (.workflow, ·)

/-- The declared programs are those that there are. -/
@[simp] theorem mem_declared {kind : ProgramKind} {name : String} :
    (kind, name) ∈ a.declared ↔ a.hasProgram kind name := by
  cases kind <;> simp [declared, hasProgram, NameMap.contains_iff_mem_keys]

/-- No program is declared twice under one kind. -/
theorem nodup_declared : a.declared.Nodup := by
  have hone : ∀ (kind : ProgramKind) (names : List String), names.Nodup →
      (names.map (kind, ·)).Nodup := fun kind names h => h.map fun _ _ => by simp
  rw [declared, List.nodup_append, List.nodup_append]
  refine ⟨⟨hone _ _ a.mapReduce.nodup_keys, hone _ _ a.spark.nodup_keys, ?_⟩,
    hone _ _ a.workflows.nodup_keys, ?_⟩
  · simp
  · intro q hq q' hq' heq
    subst heq
    obtain ⟨name, -, rfl⟩ := List.mem_map.1 hq'
    simp at hq

/-! ## Other kinds -/

/-- The same programs, of other kinds. -/
def rekinded (f g : ProgramSpec → ProgramKind) : ApplicationSpec :=
  { a with
    mapReduce := a.mapReduce.map fun p => { p with kind := f p }
    spark := a.spark.map fun p => { p with kind := g p } }

variable {a}

/-- What kinds the entries state has nothing to do with which programs are declared. -/
@[simp] theorem hasProgram_rekinded {f g : ProgramSpec → ProgramKind} (kind : ProgramKind)
    (name : String) : (a.rekinded f g).hasProgram kind name = a.hasProgram kind name := by
  rw [Bool.eq_iff_iff, ← mem_declared, ← mem_declared]
  simp [declared, rekinded]

/-- The check of a workflow asks an application only which programs there are. -/
theorem checkWorkflow_congr {a' : ApplicationSpec}
    (h : ∀ kind name, a'.hasProgram kind name = a.hasProgram kind name) (w : WorkflowSpec) :
    a'.checkWorkflow w = a.checkWorkflow w := by
  -- Of the programs a node asks only whether they are there.
  have hown : ∀ n : WorkflowNode, n.inspect a' w.name = n.inspect a w.name := by
    intro n
    cases n with
    | action id p => simp only [WorkflowNode.inspect, WorkflowNode.checkProgram, h]
    | fork id branches => cases branches <;> rfl
    | condition id p yes no => rfl
  have hvisit : WorkflowNode.visit a' w.name = WorkflowNode.visit a w.name := by
    funext r n
    simp only [WorkflowNode.visit, hown]
  rw [checkWorkflow_eq_foldlM, checkWorkflow_eq_foldlM, hvisit]

end ApplicationSpec

namespace Deployable

variable {d : Deployable} {m : Metadata}

/-- The application with other kinds for its programs. -/
def rekinded (d : Deployable) (f g : ProgramSpec → ProgramKind) : Deployable :=
  { d with spec := d.spec.rekinded f g }

/-- No requirement asks for the kind of a program. -/
theorem requirements_rekinded {f g : ProgramSpec → ProgramKind} :
    (d.rekinded f g).Requirements m ↔ d.Requirements m := by
  have hgraph : ∀ w, (d.rekinded f g).spec.checkWorkflow w = d.spec.checkWorkflow w :=
    ApplicationSpec.checkWorkflow_congr ApplicationSpec.hasProgram_rekinded
  -- Names and keys are asked for, kinds are not.
  have htitled : ∀ (kindOf : ProgramSpec → ProgramKind) (t : NameMap ProgramSpec),
      (∀ e ∈ (t.map fun p => { p with kind := kindOf p }).entries, Titled e.1 e.2.name) ↔
        ∀ e ∈ t.entries, Titled e.1 e.2.name := by
    intro kindOf t
    simp only [NameMap.map, List.forall_mem_map]
  constructor
  · intro h
    exact
      { h with
        mapReduce := (htitled f _).1 h.mapReduce
        spark := (htitled g _).1 h.spark
        graphs := fun e he => hgraph e.2 ▸ h.graphs e he }
  · intro h
    exact
      { h with
        mapReduce := (htitled f _).2 h.mapReduce
        spark := (htitled g _).2 h.spark
        graphs := fun e he => (hgraph e.2).symm ▸ h.graphs e he }

/-- What is registered is the application with the list of its programs. -/
theorem register_ok {p : Deployed} {m' : Metadata} (h : d.register m = .ok p m') :
    p.programs = d.programList := by
  rw [(register_eq_ok h).1, deployed]

/-- MapReduce programs come first, then Spark programs, then workflows. -/
theorem programList_eq (d : Deployable) : d.programList =
    d.spec.mapReduce.entries.map (fun e => (e.2.kind, e.1)) ++
      d.spec.spark.entries.map (fun e => (e.2.kind, e.1)) ++
        d.spec.workflows.keys.map (.workflow, ·) := by
  simp [programList, ApplicationSpec.programs, NameMap.map, NameMap.keys, ProgramSpec.toProgram,
    WorkflowSpec.toProgram, Function.comp_def]

/-- The list of the programs is what was declared exactly if kinds match. -/
theorem programList_eq_declared_iff : d.programList = d.spec.declared ↔ d.spec.KindsMatch := by
  have hmap : ∀ (kind : ProgramKind) (t : NameMap ProgramSpec),
      t.entries.map (fun e => (e.2.kind, e.1)) = t.keys.map (kind, ·) ↔
        ∀ e ∈ t.entries, e.2.kind = kind := by
    intro kind t
    simp [NameMap.keys]
  rw [programList_eq, ApplicationSpec.declared, List.append_left_inj, ApplicationSpec.KindsMatch,
    ← hmap, ← hmap]
  constructor
  · intro h
    exact List.append_inj h (by simp [NameMap.keys])
  · rintro ⟨hmapReduce, hspark⟩
    rw [hmapReduce, hspark]

end Deployable

/-! ## Actions -/

namespace ApplicationSpec

variable {a : ApplicationSpec}

/-- The program that the map of a kind declares under a name. -/
def program? (a : ApplicationSpec) (kind : ProgramKind) (name : String) : Option ProgramSpec :=
  match kind with
  | .mapReduce => a.mapReduce.find? name
  | .spark => a.spark.find? name
  | _ => none

/-- An action of a valid workflow runs what the map of its kind declares, custom actions apart. -/
theorem Sound.program {w : WorkflowSpec} (h : a.Sound w) {id : String} {q : ProgramRef}
    (hq : .action id q ∈ w.walk) (hkind : q.kind ≠ .customAction) :
    ∃ p, a.program? q.kind q.name = some p := by
  obtain hcustom | ⟨hkind, hname⟩ | ⟨hkind, hname⟩ := h.programs id q hq
  · exact absurd hcustom hkind
  · rw [hkind]
    exact Option.isSome_iff_exists.1 (NameMap.contains_iff_mem_keys.2 hname)
  · rw [hkind]
    exact Option.isSome_iff_exists.1 (NameMap.contains_iff_mem_keys.2 hname)

/-- Where kinds match, what the map of a kind declares is of the kind. -/
theorem KindsMatch.program (h : a.KindsMatch) {kind : ProgramKind} {name : String}
    {p : ProgramSpec} (hp : a.program? kind name = some p) : p.kind = kind := by
  cases kind with
  | mapReduce => exact h.1 _ (NameMap.mem_of_find? hp)
  | spark => exact h.2 _ (NameMap.mem_of_find? hp)
  | _ => cases hp

end ApplicationSpec

/-! ## What is registered -/

/-- **What is registered is what was declared exactly if kinds match**, and no gate sees to that:
an application that is approved is approved with any other kinds for its programs. The declared
programs are all there, none comes twice, and each action of a workflow that is not a custom action
runs a program of the map of its kind; that the program is of the kind is due to kinds that
match. -/
theorem registers_declared_iff (d : Deployable) (m : Metadata) (kinds : List SpecKind)
    (approved : d.Approved ⟨m, .asked kinds⟩) :
    (m.down = [] → ∀ f g, (d.rekinded f g).Approved ⟨m, .asked kinds⟩) ∧
      (∀ m₁ p m₂, d.register m₁ = .ok p m₂ →
        (p.programs = d.spec.declared ↔ d.spec.KindsMatch)) ∧
      (∀ q ∈ d.spec.declared, d.spec.hasProgram q.1 q.2) ∧ d.spec.declared.Nodup ∧
      ∀ w ∈ d.spec.workflows.values, ∀ id q, .action id q ∈ w.walk → q.kind ≠ .customAction →
        ∃ p, d.spec.program? q.kind q.name = some p ∧ (d.spec.KindsMatch → p.kind = q.kind) := by
  -- What was approved meets the requirements, and these look at no kind.
  have hmeets : d.Requirements m := by
    obtain ⟨d', g, hrun⟩ := approved
    exact (Deployable.approve_ok hrun).2
  refine ⟨?_, ?_, fun q hq => d.spec.mem_declared.1 hq, d.spec.nodup_declared, ?_⟩
  · intro hdown f g
    exact (Deployable.approved_iff hdown).2 (Deployable.requirements_rekinded.2 hmeets)
  · intro m₁ p m₂ hrun
    rw [Deployable.register_ok hrun]
    exact Deployable.programList_eq_declared_iff
  · intro w hw id q hq hkind
    obtain ⟨e, he, rfl⟩ := List.mem_map.1 hw
    obtain ⟨report, hreport⟩ := hmeets.graphs e he
    obtain ⟨p, hp⟩ := (ApplicationSpec.checkWorkflow_ok.1 hreport).1.program hq hkind
    exact ⟨p, hp, fun hmatch => hmatch.program hp⟩

namespace Sample

/-- An application whose workflow runs a MapReduce program, with the program that its map declares
under the name, and another in the map of Spark programs. -/
def counting (inMapReduce inSpark : ProgramSpec) : Deployable where
  id := ⟨"ns", "app", defaultVersion⟩
  spec :=
    { name := "app"
      mapReduce := .ofList [(inMapReduce.name, inMapReduce)]
      spark := .ofList [(inSpark.name, inSpark)]
      workflows := .ofList
        [("flow", { name := "flow", nodes := [.action "a" ⟨.mapReduce, inMapReduce.name⟩] })] }
  archive := "app.json"
  owner := none
  requester := "alice"

end Sample

open Sample in
/-- Where kinds match, every declared program is registered under its kind. -/
theorem counting_registers_declared :
    let d := counting { name := "p", kind := .mapReduce } { name := "p", kind := .spark }
    d.Approved ⟨.empty, .asked []⟩ ∧ ∃ p m, d.register .empty = .ok p m ∧
      p.programs = [(.mapReduce, "p"), (.spark, "p"), (.workflow, "flow")] := by
  intro d
  have happroved : d.Approved ⟨.empty, .asked []⟩ := by decide +kernel
  obtain ⟨-, hregistered, -⟩ := registers_declared_iff d .empty [] happroved
  obtain ⟨p, m, hrun⟩ := d.register_registers.succeeding .empty rfl
  have hdeclared := (hregistered _ p m hrun).2 (by decide +kernel)
  exact ⟨happroved, p, m, hrun, hdeclared.trans (by decide +kernel)⟩

open Sample in
/-- A Spark program in the map of MapReduce programs is approved. It is registered twice over as a
Spark program, and the MapReduce action runs it. -/
theorem spark_program_passes_for_mapReduce :
    let d := counting { name := "p", kind := .spark } { name := "p", kind := .spark }
    d.Approved ⟨.empty, .empty⟩ ∧ ¬ d.spec.KindsMatch ∧
      (∃ p m, d.register .empty = .ok p m ∧
        p.programs = [(.spark, "p"), (.spark, "p"), (.workflow, "flow")]) ∧
      (d.spec.program? .mapReduce "p").map (·.kind) = some .spark := by
  intro d
  obtain ⟨p, m, hrun⟩ := d.register_registers.succeeding .empty rfl
  have hlist : d.programList = [(.spark, "p"), (.spark, "p"), (.workflow, "flow")] := by
    decide +kernel
  refine ⟨by decide +kernel, by decide +kernel, ⟨p, m, hrun, ?_⟩, by decide +kernel⟩
  rw [Deployable.register_ok hrun, hlist]

end Deployment
