import Deployment.Proofs.Text.Utf8
import Deployment.Proofs.Verification.Kinds
import Mathlib.Data.List.Induction

/-! # Descriptors that are built up

A descriptor is built up by declarations, one after the other. Whatever comes twice counts as it
came last, and whatever is declared stands under its own name, among others of its kind.

* **`NameMap.named`** — values under their own names.
* **`Declaration`** — a step of building up; **`ApplicationSpec.declaring`** — all of them.
* **`ApplicationSpec.declaring_eq`** — what every map of the descriptor holds at last.
* **`ApplicationSpec.Consistent`** — everything stands in its place; **`ApplicationSpec.Lists`** —
  and programs are listed in order.
* **`ApplicationSpec.consistent_declaring`** — what is built up by declarations is consistent.
* **`declarations_stay_consistent`** — what follows for programs and for the verifier. -/

namespace Deployment

/-! ## Values under their own names -/

namespace NameMap

variable {α : Type} {name : α → String} {l : List α} {k : String}

/-- What is found under a name are the entries of the name. -/
theorem find?_eq_some_iff {m : NameMap α} {v : α} : m.find? k = some v ↔ (k, v) ∈ m.entries := by
  refine ⟨mem_of_find?, fun h => ?_⟩
  have hk : m.contains k := contains_iff_mem_keys.2 (List.mem_map.2 ⟨(k, v), h, rfl⟩)
  obtain ⟨w, hw⟩ := Option.isSome_iff_exists.1 hk
  have hsame := entry_unique (mem_of_find? hw) h rfl
  rw [hw, (Prod.mk.inj hsame).2]

/-- Values under their own names; of two with one name the later counts. -/
def named (name : α → String) (l : List α) : NameMap α := ofList (l.map fun v => (name v, v))

/-- Of no values there is the empty map. -/
@[simp] theorem named_nil (name : α → String) : named name [] = .empty := rfl

/-- The last value of a list is the last one that is put under its name. -/
@[simp] theorem named_append_singleton (name : α → String) (l : List α) (v : α) :
    named name (l ++ [v]) = (named name l).insert (name v) v := by
  simp only [named, ofList, List.map_append, List.map_cons, List.map_nil, List.foldl_append,
    List.foldl_cons, List.foldl_nil]

/-- The value under a name is the last one of the name. -/
theorem find?_named : (named name l).find? k = (l.filter fun v => name v = k).getLast? := by
  induction l using List.reverseRecOn with
  | nil => rfl
  | append_singleton l v ih =>
    rw [named_append_singleton, find?_insert, List.filter_append, ih]
    by_cases hk : name v = k
    · simp [hk]
    · simp [hk]

/-- Every value stands under its own name. -/
def SelfNamed (name : α → String) (m : NameMap α) : Prop := ∀ e ∈ m.entries, name e.2 = e.1

/-- Each entry is one of the values, under its own name. -/
theorem of_mem_named {e : String × α} (h : e ∈ (named name l).entries) :
    e.2 ∈ l ∧ name e.2 = e.1 := by
  have hfind := find?_eq_some_iff.2 h
  rw [find?_named] at hfind
  simpa using List.mem_of_getLast? hfind

/-- Values that are put under their own names stand under these. -/
theorem selfNamed_named : (named name l).SelfNamed name := fun _ he => (of_mem_named he).2

/-- A name has a value exactly if one of the values has the name. -/
@[simp] theorem contains_named : (named name l).contains k ↔ ∃ v ∈ l, name v = k := by
  rw [contains, find?_named, List.getLast?_isSome, ne_eq, List.filter_eq_nil_iff]
  simp

end NameMap

/-! ## Declarations -/

/-- A step in building up a descriptor. -/
inductive Declaration where
  | version (version : String)
  | program (spec : ProgramSpec)
  | workflow (spec : WorkflowSpec)
  | dataset (spec : DatasetSpec)
  | schedule (spec : ScheduleSpec)

namespace Declaration

/-- The descriptor with what is declared. -/
@[simp] def addTo (a : ApplicationSpec) : Declaration → ApplicationSpec
  | .version v => a.withVersion v
  | .program p => a.withProgram p
  | .workflow w => a.withWorkflow w
  | .dataset d => a.withDataset d
  | .schedule s => a.withSchedule s

/-- The version that is declared. -/
@[simp] def version? : Declaration → Option String
  | .version v => some v
  | _ => none

/-- The program of a kind that is declared. -/
@[simp] def program? (kind : ProgramKind) : Declaration → Option ProgramSpec
  | .program p => if p.kind = kind then some p else none
  | _ => none

/-- The workflow that is declared. -/
@[simp] def workflow? : Declaration → Option WorkflowSpec
  | .workflow w => some w
  | _ => none

/-- The dataset that is declared. -/
@[simp] def dataset? : Declaration → Option DatasetSpec
  | .dataset d => some d
  | _ => none

/-- The schedule that is declared. -/
@[simp] def schedule? : Declaration → Option ScheduleSpec
  | .schedule s => some s
  | _ => none

/-- Something that runs is declared, of a kind and under a name: a MapReduce program, a Spark
program, or a workflow. -/
def Runs (kind : ProgramKind) (name : String) : Declaration → Prop
  | .program p => (kind = .mapReduce ∨ kind = .spark) ∧ p.kind = kind ∧ p.name = name
  | .workflow w => kind = .workflow ∧ w.name = name
  | _ => False

/-- A declaration gives a program of a kind to run under a key exactly if it declares one of
that name. -/
theorem runs_program_iff {kind : ProgramKind} (hk : kind = .mapReduce ∨ kind = .spark)
    {key : String} {d : Declaration} :
    d.Runs kind key ↔ ∃ p, d.program? kind = some p ∧ p.name = key := by
  have hworkflow : kind ≠ .workflow := by rcases hk with rfl | rfl <;> nofun
  cases d <;> simp [Runs, hk, hworkflow]

/-- A declaration gives a workflow to run under a key exactly if it declares one of that name. -/
theorem runs_workflow_iff {key : String} {d : Declaration} :
    d.Runs .workflow key ↔ ∃ w, d.workflow? = some w ∧ w.name = key := by
  cases d <;> simp [Runs]

/-- Kinds of programs that are not declared on their own do not run. -/
theorem not_runs {kind : ProgramKind} (hk : kind ∉ [.mapReduce, .spark, .workflow]) {key : String}
    {d : Declaration} : ¬ d.Runs kind key := by
  cases d <;> simp_all [Runs]

end Declaration

namespace ApplicationSpec

/-- The descriptor of a name with everything that is declared, one after the other. -/
def declaring (name : String) (ds : List Declaration) : ApplicationSpec :=
  ds.foldl Declaration.addTo { name := name }

/-- The last declaration is the last one that is added. -/
@[simp] theorem declaring_append_singleton (name : String) (ds : List Declaration)
    (d : Declaration) :
    declaring name (ds ++ [d]) = d.addTo (declaring name ds) := by
  rw [declaring, List.foldl_append]
  rfl

/-- Every map of the descriptor holds what was declared for it, under its own names. -/
theorem declaring_eq (name : String) (ds : List Declaration) : declaring name ds =
    { name := name
      version := (ds.filterMap Declaration.version?).getLast?.getD defaultVersion
      mapReduce := .named (·.name) (ds.filterMap (Declaration.program? .mapReduce))
      spark := .named (·.name) (ds.filterMap (Declaration.program? .spark))
      workflows := .named (·.name) (ds.filterMap Declaration.workflow?)
      datasets := .named (·.name) (ds.filterMap Declaration.dataset?)
      schedules := .named (·.name) (ds.filterMap Declaration.schedule?) } := by
  -- From the end: the last declaration of a name is the one that stands.
  induction ds using List.reverseRecOn with
  | nil => rfl
  | append_singleton ds d ih =>
    rw [declaring_append_singleton, ih]
    simp only [List.filterMap_append, List.filterMap_cons, List.filterMap_nil]
    cases d with
    | version v => simp [withVersion]
    | program p => cases hkind : p.kind <;> simp [withProgram, hkind]
    | workflow w => simp [withWorkflow]
    | dataset d => simp [withDataset]
    | schedule s => simp [withSchedule]

/-! ## Consistent descriptors -/

/-- Everything stands under its own name, and every program in the map of its kind. -/
structure Consistent (a : ApplicationSpec) : Prop where
  kinds : a.KindsMatch
  mapReduce : a.mapReduce.SelfNamed (·.name)
  spark : a.spark.SelfNamed (·.name)
  workflows : a.workflows.SelfNamed (·.name)
  datasets : a.datasets.SelfNamed (·.name)
  schedules : a.schedules.SelfNamed (·.name)

/-- All programs of a kind, each once, in the order of the bytes of their names. -/
structure Lists (a : ApplicationSpec) (kind : ProgramKind) (l : List (String × Program)) :
    Prop where
  ordered : l.Pairwise fun e e' => Utf8.encode e.1 < Utf8.encode e'.1
  listed : ∀ e, e ∈ l ↔ a.hasProgram kind e.1 ∧ e.2 = ⟨e.1, kind⟩

variable {a : ApplicationSpec}

/-- The entries of a map list the programs of a kind if the kind is looked up there. -/
theorem lists_map {α : Type} {kind : ProgramKind} {m : NameMap α} {f : α → Program}
    (hf : ∀ e ∈ m.entries, f e.2 = ⟨e.1, kind⟩)
    (hm : ∀ key, a.hasProgram kind key = m.contains key) :
    a.Lists kind (m.map f).entries where
  ordered := (m.map f).sorted.imp Utf8.encode_lt_iff.2
  listed e := by
    rw [hm, NameMap.contains_iff_mem_keys, NameMap.keys]
    constructor
    · intro he
      obtain ⟨e', he', rfl⟩ := List.mem_map.1 he
      exact ⟨List.mem_map.2 ⟨e', he', rfl⟩, hf e' he'⟩
    · rintro ⟨hkey, hprogram⟩
      obtain ⟨e', he', hsame⟩ := List.mem_map.1 hkey
      refine List.mem_map.2 ⟨e', he', ?_⟩
      rw [hf e' he', hsame, ← hprogram]

namespace Consistent

/-- A consistent descriptor lists its MapReduce programs, then its Spark programs, then its
workflows. -/
theorem programs (h : a.Consistent) : ∃ mapReduce spark workflows,
    a.programs = mapReduce ++ spark ++ workflows ∧ a.Lists .mapReduce mapReduce ∧
      a.Lists .spark spark ∧ a.Lists .workflow workflows := by
  refine ⟨_, _, _, rfl, lists_map (fun e he => ?_) fun _ => rfl,
    lists_map (fun e he => ?_) fun _ => rfl, lists_map (fun e he => ?_) fun _ => rfl⟩
  · exact congrArg₂ Program.mk (h.mapReduce e he) (h.kinds.1 e he)
  · exact congrArg₂ Program.mk (h.spark e he) (h.kinds.2 e he)
  · exact congrArg (Program.mk · .workflow) (h.workflows e he)

/-- Of a consistent descriptor only the name and the version can be wrong. -/
theorem verdict_ok_iff (h : a.Consistent) :
    a.verdict = .ok () ↔ isIdentifier a.name ∧ a.version ≠ "" := by
  obtain ⟨mapReduce, spark, workflows, hprograms, hm, hs, hw⟩ := h.programs
  -- Whichever map a program is listed from, it stands under its own name.
  have hkeys : ∀ p ∈ a.programs, p.1 = p.2.name := by
    intro p hp
    rw [hprograms, List.mem_append, List.mem_append] at hp
    rcases hp with (hp | hp) | hp
    · rw [((hm.listed p).1 hp).2]
    · rw [((hs.listed p).1 hp).2]
    · rw [((hw.listed p).1 hp).2]
  rw [verdict_ok]
  refine ⟨fun hok => ⟨hok.1, hok.2.1⟩, fun hok => ⟨hok.1, hok.2, hkeys, fun e he => ?_⟩⟩
  exact (h.datasets e he).symm

end Consistent

/-- What is built up by declarations is consistent. -/
theorem consistent_declaring (name : String) (ds : List Declaration) :
    (declaring name ds).Consistent := by
  rw [declaring_eq]
  have hkind : ∀ {kind e},
      e ∈ (NameMap.named (·.name) (ds.filterMap (Declaration.program? kind))).entries →
        e.2.kind = kind := by
    intro kind e he
    obtain ⟨d, -, hd⟩ := List.mem_filterMap.1 (NameMap.of_mem_named he).1
    cases d <;> simp at hd
    obtain ⟨hkind, rfl⟩ := hd
    exact hkind
  exact {
    kinds := ⟨fun _ => hkind, fun _ => hkind⟩
    mapReduce := NameMap.selfNamed_named
    spark := NameMap.selfNamed_named
    workflows := NameMap.selfNamed_named
    datasets := NameMap.selfNamed_named
    schedules := NameMap.selfNamed_named }

/-- A name is in a map that was built up if something of the name was declared for it. -/
theorem contains_named_filterMap {α : Type} {pick : Declaration → Option α} {nameOf : α → String}
    {ds : List Declaration} {key : String} :
    (NameMap.named nameOf (ds.filterMap pick)).contains key ↔
      ∃ d ∈ ds, ∃ v, pick d = some v ∧ nameOf v = key := by
  rw [NameMap.contains_named]
  constructor
  · rintro ⟨v, hv, hkey⟩
    obtain ⟨d, hd, hpick⟩ := List.mem_filterMap.1 hv
    exact ⟨d, hd, v, hpick, hkey⟩
  · rintro ⟨d, hd, v, hpick, hkey⟩
    exact ⟨v, List.mem_filterMap.2 ⟨d, hd, hpick⟩, hkey⟩

/-- What runs in a descriptor is what was declared to run. -/
theorem hasProgram_declaring (name : String) (ds : List Declaration) (kind : ProgramKind)
    (key : String) : (declaring name ds).hasProgram kind key ↔ ∃ d ∈ ds, d.Runs kind key := by
  rw [declaring_eq]
  cases kind with
  | mapReduce =>
    simp only [Declaration.runs_program_iff (.inl rfl), hasProgram, contains_named_filterMap]
  | spark =>
    simp only [Declaration.runs_program_iff (.inr rfl), hasProgram, contains_named_filterMap]
  | workflow => simp only [Declaration.runs_workflow_iff, hasProgram, contains_named_filterMap]
  | customAction | service | worker =>
    simp only [hasProgram, Bool.false_eq_true, false_iff, not_exists, not_and]
    exact fun d _ => Declaration.not_runs (by decide)

end ApplicationSpec

/-- Of what was declared, the last under a name. -/
def Declaration.last? {α : Type} (pick : Declaration → Option α) (nameOf : α → String)
    (key : String) (ds : List Declaration) : Option α :=
  ((ds.filterMap pick).filter fun v => nameOf v = key).getLast?

open Declaration in
/-- Descriptors that are built up are consistent, whatever is declared in whatever order: what is
declared last under a name counts, programs are listed by kind and name, and the verifier of
applications looks at nothing but the name and the version. -/
theorem declarations_stay_consistent (name : String) (ds : List Declaration) :
    let a := ApplicationSpec.declaring name ds
    a.Consistent ∧
    -- What runs was declared to run.
    (∀ kind key, a.hasProgram kind key ↔ ∃ d ∈ ds, d.Runs kind key) ∧
    -- Under every name there is what was declared last.
    (∀ key, a.mapReduce.find? key = last? (program? .mapReduce) (·.name) key ds ∧
      a.spark.find? key = last? (program? .spark) (·.name) key ds ∧
      a.workflows.find? key = last? workflow? (·.name) key ds ∧
      a.datasets.find? key = last? dataset? (·.name) key ds ∧
      a.schedules.find? key = last? schedule? (·.name) key ds) ∧
    (a.name = name ∧ a.version = (ds.filterMap version?).getLast?.getD defaultVersion) ∧
    -- Programs are listed by kind, and in the order of the bytes of their names.
    (∃ mapReduce spark workflows, a.programs = mapReduce ++ spark ++ workflows ∧
      a.Lists .mapReduce mapReduce ∧ a.Lists .spark spark ∧ a.Lists .workflow workflows) ∧
    ∀ app, Verifier.application.verify app (.application a) = .ok () ↔
      isIdentifier name ∧ a.version ≠ "" := by
  intro a
  have ha : a.Consistent := ApplicationSpec.consistent_declaring name ds
  have heq := ApplicationSpec.declaring_eq name ds
  have hname : a.name = name := congrArg (·.name) heq
  refine ⟨ha, ApplicationSpec.hasProgram_declaring name ds, fun key => ?_,
    ⟨hname, congrArg (·.version) heq⟩, ha.programs, fun app => ?_⟩
  · rw [show a = _ from heq]
    refine ⟨?_, ?_, ?_, ?_, ?_⟩ <;> exact NameMap.find?_named
  · rw [← hname]
    exact ha.verdict_ok_iff

end Deployment
