import Mathlib.Data.List.TakeWhile
import Deployment.Proofs.Verification.Gates

/-! # What an application has to meet

Seven gates with four loops over the descriptor come to one list of requirements, and each of them
can be read off the descriptor and the metadata without a run.

* **`VerifierRegistry.asked`** — a registry after any verifiers were asked for.
* **`Deployable.Requirements`** — what an application has to meet.
* **`Deployable.admissible_iff`** — the admissible applications are those that meet it.
* **`Deployable.Approved`** — an application that passes the gates.
* **`approves_what_meets_requirements`** — what is approved, and what a verification leaves. -/

namespace Deployment

/-! ## Registries that were used -/

namespace VerifierRegistry

/-- The registry after verifiers were asked for, one after the other. -/
def asked (kinds : List SpecKind) : VerifierRegistry :=
  kinds.foldl (fun r kind => ((get kind).run r).2) .empty

/-- A registry that was asked for verifiers is faithful. -/
theorem faithful_asked (kinds : List SpecKind) : (asked kinds).Faithful := by
  -- the accumulated registry is faithful from the start on
  suffices h : ∀ r : VerifierRegistry, r.Faithful →
      (kinds.foldl (fun r kind => ((get kind).run r).2) r).Faithful from h _ faithful_empty
  induction kinds with
  | nil => exact fun r h => h
  | cons kind rest ih =>
    intro r h
    obtain ⟨r', hr', hget⟩ := h.get kind
    rw [List.foldl_cons, hget]
    exact ih r' hr'

end VerifierRegistry

/-! ## Verdicts in plain words -/

/-- Nothing is left of a text that is trimmed exactly if all of it is blank. -/
@[simp] theorem Text.isEmpty_trim (s : String) : (Text.trim s).isEmpty ↔ Text.allBlank s := by
  rw [Text.trim, String.isEmpty_iff, String.ofList_eq_empty_iff, List.reverse_eq_nil_iff,
    Text.dropBlanks, List.dropWhile_eq_nil_iff, Text.allBlank, List.all_eq_true]
  constructor
  · intro h c hc
    rw [← List.takeWhile_append_dropWhile (p := isBlank) (l := s.toList)] at hc
    rcases List.mem_append.1 hc with hfront | hrest
    · exact List.mem_takeWhile_imp hfront
    · exact h c (List.mem_reverse.2 hrest)
  · intro h c hc
    exact h c ((List.dropWhile_sublist isBlank).subset (List.mem_reverse.1 hc))

/-- Nothing is wrong with a dataset exactly if its name can be one and its type is not blank. -/
theorem DatasetSpec.verdict_ok {s : DatasetSpec} {app : ApplicationId} :
    s.verdict app = .ok () ↔ isDatasetName s.name ∧ ¬ Text.allBlank s.kind := by
  rw [verdict, Verdict.bind_ok, Verdict.require_ok, Verdict.require_ok, Bool.not_eq_true',
    ← Bool.not_eq_true, Text.isEmpty_trim]

/-- To the verifier for its own kind a program matters by its name only. -/
theorem Program.verdict_ok {p : Program} {app : ApplicationId} :
    p.verdict p.kind app = .ok () ↔ isIdentifier p.name := by
  rw [verdict, Verdict.bind_ok, Verdict.require_ok, Verdict.require_ok, decide_eq_true_eq]
  exact and_iff_right rfl

/-- What runs is what the three maps declare. -/
theorem ApplicationSpec.forall_programs {a : ApplicationSpec} {P : String × Program → Prop} :
    (∀ p ∈ a.programs, P p) ↔ (∀ e ∈ a.mapReduce.entries, P (e.1, e.2.toProgram)) ∧
      (∀ e ∈ a.spark.entries, P (e.1, e.2.toProgram)) ∧
      ∀ e ∈ a.workflows.entries, P (e.1, e.2.toProgram) := by
  simp only [programs, NameMap.map, List.forall_mem_append, List.forall_mem_map, and_assoc]

/-- What holds of all values holds of all entries. -/
theorem NameMap.forall_values {α : Type} {m : NameMap α} {P : α → Prop} :
    (∀ v ∈ m.values, P v) ↔ ∀ e ∈ m.entries, P e.2 := by
  rw [values, List.forall_mem_map]

/-! ## The requirements -/

/-- Something declared under a name bears that name, which is an identifier. -/
def Titled (key name : String) : Prop := key = name ∧ isIdentifier name

/-- What an application has to meet to be deployed. -/
structure Deployable.Requirements (d : Deployable) (m : Metadata) : Prop where
  /-- The owner that is asked for, if there is one, is a principal. -/
  principal : ∀ o, d.owner = some o → o.isValid
  /-- Versions that are stored belong to the owner that is asked for; no owner is an owner too. -/
  owned : (∃ a ∈ m.applications, a.1.ref = d.id.ref) →
    m.ownerOf (.application d.id.ref) = d.owner
  name : isIdentifier d.spec.name
  version : d.spec.version ≠ ""
  mapReduce : ∀ e ∈ d.spec.mapReduce.entries, Titled e.1 e.2.name
  spark : ∀ e ∈ d.spec.spark.entries, Titled e.1 e.2.name
  workflows : ∀ e ∈ d.spec.workflows.entries, Titled e.1 e.2.name
  datasets : ∀ e ∈ d.spec.datasets.entries, e.1 = e.2.name ∧ isDatasetName e.2.name ∧
    ¬ Text.allBlank e.2.kind
  /-- Whoever looks at datasets for the deployment may do so. -/
  shown : ∀ e ∈ d.spec.datasets.entries, m.MayLook (m.actor d.scope d.owner d.requester)
  /-- A dataset that exists has the declared type, and the owner that is asked for. -/
  existing : ∀ e ∈ d.spec.datasets.entries, ∀ x,
    Keyed.find? (d.id.dataset e.2.name) m.datasets = some x →
      x.spec.kind = e.2.kind ∧ m.ownerOf (.dataset (d.id.dataset e.2.name)) = d.owner
  graphs : ∀ e ∈ d.spec.workflows.entries, ∃ report, d.spec.checkWorkflow e.2 = .ok report
  schedules : ∀ e ∈ d.spec.schedules.entries, e.2.program ∈ d.spec.workflows.keys

/-- An application has a version exactly if one of those that are stored is of it. -/
theorem Metadata.has_application_iff_stored (m : Metadata) (ref : ApplicationRef) :
    m.Has (.application ref) ↔ ∃ a ∈ m.applications, a.1.ref = ref := by
  simp only [Has, Keyed.contains_iff_mem, List.mem_map]
  constructor
  · rintro ⟨_, href, a, ha, rfl⟩
    exact ⟨a, ha, href⟩
  · rintro ⟨a, ha, href⟩
    exact ⟨a.1, href, a, ha, rfl⟩

/-- The admissible applications are those that meet the requirements. -/
theorem Deployable.admissible_iff (d : Deployable) {m : Metadata} :
    d.Admissible m ↔ d.Requirements m := by
  -- The gates speak of stored entities, the requirements of what is declared: the same facts,
  -- listed by kind of program.
  have hstored := m.has_application_iff_stored d.id.ref
  constructor
  · intro h
    obtain ⟨hname, hversion, hkeys, hdatasets⟩ := ApplicationSpec.verdict_ok.1 h.formed
    obtain ⟨hkeyMapReduce, hkeySpark, hkeyWorkflows⟩ := ApplicationSpec.forall_programs.1 hkeys
    have hnames : ∀ p ∈ d.spec.programs, isIdentifier p.2.name := fun p hp =>
      Program.verdict_ok.1 (h.programs p hp)
    obtain ⟨hnameMapReduce, hnameSpark, hnameWorkflows⟩ := ApplicationSpec.forall_programs.1 hnames
    have haccepts : ∀ e ∈ d.spec.datasets.entries, d.Accepts m e.2 :=
      NameMap.forall_values.1 h.datasets
    refine
      { principal := h.owner
        owned := fun hversions => h.owned (hstored.2 hversions)
        name := hname
        version := hversion
        mapReduce := fun e he => ⟨hkeyMapReduce e he, hnameMapReduce e he⟩
        spark := fun e he => ⟨hkeySpark e he, hnameSpark e he⟩
        workflows := fun e he => ⟨hkeyWorkflows e he, hnameWorkflows e he⟩
        datasets := fun e he => ⟨hdatasets e he, DatasetSpec.verdict_ok.1 (haccepts e he).formed⟩
        shown := fun e he => (haccepts e he).shown
        existing := fun e he x hx => ⟨(haccepts e he).kind x hx, (haccepts e he).owned ?_⟩
        graphs := NameMap.forall_values.1 h.workflows
        schedules := fun e he => NameMap.contains_iff_mem_keys.1
          (NameMap.forall_values.1 h.schedules e he) }
    exact Option.isSome_iff_exists.2 ⟨x, hx⟩
  · intro h
    have hkeys : ∀ p ∈ d.spec.programs, p.1 = p.2.name := ApplicationSpec.forall_programs.2
      ⟨fun e he => (h.mapReduce e he).1, fun e he => (h.spark e he).1,
        fun e he => (h.workflows e he).1⟩
    have hnames : ∀ p ∈ d.spec.programs, isIdentifier p.2.name := ApplicationSpec.forall_programs.2
      ⟨fun e he => (h.mapReduce e he).2, fun e he => (h.spark e he).2,
        fun e he => (h.workflows e he).2⟩
    have haccepts : ∀ e ∈ d.spec.datasets.entries, d.Accepts m e.2 := fun e he =>
      { formed := DatasetSpec.verdict_ok.2 (h.datasets e he).2
        shown := h.shown e he
        kind := fun x hx => (h.existing e he x hx).1
        owned := fun hhas => by
          obtain ⟨x, hx⟩ := Option.isSome_iff_exists.1 hhas
          exact (h.existing e he x hx).2 }
    exact
      { owner := h.principal
        owned := fun hhas => h.owned (hstored.1 hhas)
        formed := ApplicationSpec.verdict_ok.2
          ⟨h.name, h.version, hkeys, fun e he => (h.datasets e he).1⟩
        datasets := NameMap.forall_values.2 haccepts
        programs := fun p hp => Program.verdict_ok.2 (hnames p hp)
        workflows := NameMap.forall_values.2 h.graphs
        schedules := NameMap.forall_values.2 fun e he =>
          NameMap.contains_iff_mem_keys.2 (h.schedules e he) }

/-! ## What is approved -/

/-- The application passes all gates. -/
def Deployable.Approved (d : Deployable) (g : Gatehouse) : Prop := ∃ d' g', d.approve g = .ok d' g'

/-- It can be decided whether an application is approved. -/
instance (d : Deployable) (g : Gatehouse) : Decidable (d.Approved g) :=
  match h : d.approve g with
  | .ok d' g' => .isTrue ⟨d', g', h⟩
  | .error _ _ => .isFalse fun ⟨_, _, h'⟩ => by rw [h] at h'; cases h'

namespace Deployable

variable {d d' : Deployable} {m : Metadata} {kinds : List SpecKind} {g : Gatehouse}

/-- What is approved is handed on as it is, and meets the requirements. -/
theorem approve_ok (h : d.approve ⟨m, .asked kinds⟩ = .ok d' g) : d' = d ∧ d.Requirements m := by
  obtain ⟨heq, hadm⟩ := d.approve_yields.sound (VerifierRegistry.faithful_asked kinds) h
  exact ⟨heq, d.admissible_iff.1 hadm⟩

/-- Where every request is available, what meets the requirements is approved. -/
theorem approved_iff (hdown : m.down = []) :
    d.Approved ⟨m, .asked kinds⟩ ↔ d.Requirements m := by
  constructor
  · rintro ⟨d', g, hrun⟩
    exact (approve_ok hrun).2
  · intro h
    obtain ⟨g, hrun⟩ := d.approve_yields.complete (g := ⟨m, .asked kinds⟩)
      (VerifierRegistry.faithful_asked kinds) hdown ⟨rfl, d.admissible_iff.2 h⟩
    exact ⟨d, g, hrun⟩

end Deployable

/-- **What a verification approves, and what it leaves.** Where every request is available, an
application is approved exactly if it meets the requirements. What is approved is handed on as it
is. Whatever happens, nothing but looks at datasets is noted. -/
theorem approves_what_meets_requirements (d : Deployable) (m : Metadata)
    (kinds : List SpecKind) :
    (m.down = [] → (d.Approved ⟨m, .asked kinds⟩ ↔ d.Requirements m)) ∧
      (∀ d' g, d.approve ⟨m, .asked kinds⟩ = .ok d' g → d' = d ∧ d.Requirements m) ∧
      ∃ looks, (finalState d.approve ⟨m, .asked kinds⟩).metadata =
        { m with lookups := m.lookups ++ looks } := by
  refine ⟨fun hdown => Deployable.approved_iff hdown, fun d' g h => Deployable.approve_ok h, ?_⟩
  exact (d.approve_yields.looks ⟨m, .asked kinds⟩ (VerifierRegistry.faithful_asked kinds)).1

/-- An application with a program, a workflow, a schedule and a dataset, which was deployed before
by the owner that is asked for. -/
theorem deployed_again_approved :
    let count : ProgramSpec := { name := "count", kind := .mapReduce }
    let flow : WorkflowSpec := { name := "flow", nodes := [.action "a" ⟨.mapReduce, "count"⟩] }
    let spec := { name := "app" : ApplicationSpec }
      |>.withProgram count |>.withWorkflow flow
      |>.withDataset { name := "d", kind := "table" }
      |>.withSchedule { name := "nightly", program := "flow" }
    let d : Deployable := ⟨⟨"ns", "app", "2"⟩, spec, "app.json", some ⟨"alice@R"⟩, "alice"⟩
    let m : Metadata :=
      { applications := [(⟨"ns", "app", "1"⟩, ⟨⟨"ns", "app", "1"⟩, spec, "app.json", d.owner⟩)]
        datasets := [(⟨"ns", "d"⟩, ⟨{ name := "d", kind := "table" }, d.owner⟩)]
        owners := [(.application ⟨"ns", "app"⟩, ⟨"alice@R"⟩), (.dataset ⟨"ns", "d"⟩, ⟨"alice@R"⟩)]
        restrictedTo := some "alice@R" }
    (∃ g, d.approve ⟨m, .asked [.dataset]⟩ = .ok d g) ∧ d.Requirements m := by
  intro count flow spec d m
  obtain ⟨hexactly, hsame, -⟩ := approves_what_meets_requirements d m [.dataset]
  have happroved : d.Approved ⟨m, .asked [.dataset]⟩ := by decide +kernel
  obtain ⟨d', g, hrun⟩ := happroved
  obtain ⟨rfl, -⟩ := hsame d' g hrun
  exact ⟨⟨g, hrun⟩, (hexactly rfl).1 ⟨_, g, hrun⟩⟩

end Deployment
