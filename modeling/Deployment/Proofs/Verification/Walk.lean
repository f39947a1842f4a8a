import Mathlib.Data.List.Nodup
import Deployment.Data.Stateful
import Deployment.Verification.Graph

/-! # Walks over workflows

The check of a workflow threads one report through the whole tree. Laid out in the order of the
walk, the tree is a list, and the check is a fold over it; what a fold accepts is told node by node.

* **`WorkflowSpec.walk`** — the nodes of the whole tree: a node before its contents, branches from
  left to right.
* **`WorkflowNode.visit`** — what the walk does at one node.
* **`checkWorkflow_eq_foldlM`** — the check visits the nodes of the walk, one after the other.
* **`ApplicationSpec.Sound`** — a valid workflow.
* **`sound_workflows_accepted`** — exactly the valid workflows are accepted, with the report. -/

namespace Deployment

namespace WorkflowNode

/-! ## The order of the walk -/

mutual

/-- A node and all that is in it. -/
def walk : WorkflowNode → List WorkflowNode
  | .action id p => [.action id p]
  | .fork id branches => .fork id branches :: walkBranches branches
  | .condition id p yes no => .condition id p yes no :: (walkNodes yes ++ walkNodes no)

/-- All that is in a list of nodes. -/
def walkNodes : List WorkflowNode → List WorkflowNode
  | [] => []
  | n :: rest => walk n ++ walkNodes rest

/-- All that is in the branches of a fork. -/
def walkBranches : List (List WorkflowNode) → List WorkflowNode
  | [] => []
  | b :: rest => walkNodes b ++ walkBranches rest

end

/-- The identifiers of nodes that have one. -/
def identifiers (ns : List WorkflowNode) : List String := ns.filterMap id?

/-- The identifiers of nodes are those of the first, and then those of the rest. -/
@[simp] theorem identifiers_cons (n : WorkflowNode) (ns : List WorkflowNode) :
    identifiers (n :: ns) = n.id?.toList ++ identifiers ns := by
  cases h : n.id? <;> simp [identifiers, h]

/-- There are as many identifiers as nodes that have one. -/
@[simp] theorem length_identifiers (ns : List WorkflowNode) :
    (identifiers ns).length = ns.countP (·.id?.isSome) := by
  rw [identifiers, List.length_filterMap_eq_countP]

/-! ## The visit of one node -/

variable (app : ApplicationSpec) (workflow : String)

/-- What a node has to satisfy whatever was seen before it. -/
def inspect : WorkflowNode → Except GraphFault Unit
  | .action _ p => checkProgram app workflow p
  | .fork _ [] => throw (.emptyFork workflow)
  | _ => .ok ()

/-- What the walk does at one node: its identifier first, then what it runs or holds. -/
def visit (r : GraphReport) (n : WorkflowNode) : Except GraphFault GraphReport := do
  let r ← note workflow n r
  inspect app workflow n
  return r

/-- Going on after visits is going on with visits. -/
theorem foldlM_visit_append (r : GraphReport) (ns rest : List WorkflowNode) :
    (ns ++ rest).foldlM (visit app workflow) r =
      ns.foldlM (visit app workflow) r >>= rest.foldlM (visit app workflow) :=
  List.foldlM_append

mutual

/-- The check of a node visits the node and then all that is in it. -/
theorem check_eq_foldlM (r : GraphReport) (n : WorkflowNode) :
    check app workflow r n = (walk n).foldlM (visit app workflow) r := by
  cases n with
  | action id p =>
    rw [check, walk, List.foldlM_cons]
    exact (bind_pure _).symm
  | fork id branches =>
    rw [walk, List.foldlM_cons, visit]
    -- A fork without branches ends the walk there; any other goes on with them.
    cases branches with
    | nil =>
      rw [check]
      cases note workflow (.fork id []) r <;> rfl
    | cons b rest =>
      rw [check]
      cases note workflow (.fork id (b :: rest)) r with
      | error f => rfl
      | ok r => exact checkBranches_eq_foldlM r (b :: rest)
  | condition id p yes no =>
    rw [check, walk, List.foldlM_cons, visit]
    cases note workflow (.condition id p yes no) r with
    | error f => rfl
    | ok r =>
      show (do checkNodes app workflow (← checkNodes app workflow r yes) no) = _
      rw [checkNodes_eq_foldlM r yes, funext fun r => checkNodes_eq_foldlM r no]
      -- One walk over both sides is a walk over the one and then over the other.
      exact (foldlM_visit_append app workflow r _ _).symm

/-- The check of a list of nodes visits all that is in it. -/
theorem checkNodes_eq_foldlM (r : GraphReport) (ns : List WorkflowNode) :
    checkNodes app workflow r ns = (walkNodes ns).foldlM (visit app workflow) r := by
  cases ns with
  | nil => rw [checkNodes, walkNodes]; rfl
  | cons n rest =>
    rw [checkNodes, walkNodes, foldlM_visit_append, check_eq_foldlM r n]
    exact bind_congr fun r => checkNodes_eq_foldlM r rest

/-- The check of branches visits all that is in them. -/
theorem checkBranches_eq_foldlM (r : GraphReport) (bs : List (List WorkflowNode)) :
    checkBranches app workflow r bs = (walkBranches bs).foldlM (visit app workflow) r := by
  cases bs with
  | nil => rw [checkBranches, walkBranches]; rfl
  | cons b rest =>
    rw [checkBranches, walkBranches, foldlM_visit_append, checkNodes_eq_foldlM r b]
    exact bind_congr fun r => checkBranches_eq_foldlM r rest

end

/-! ## What visits accept -/

/-- A fault ends a sequence of checks; without one the rest goes on from the report. -/
theorem bind_ok {α β : Type} {x : Except GraphFault α} {f : α → Except GraphFault β} {b : β} :
    (x >>= f) = .ok b ↔ ∃ a, x = .ok a ∧ f a = .ok b := by
  cases x with
  | ok a => simp [Failing.ok_bind]
  | error e => simp [Failing.error_bind]

/-- A report with further identifiers noted. -/
def noting (r : GraphReport) (ids : List String) : GraphReport where
  ids := r.ids ++ ids
  warnings := r.warnings ++ (ids.filter (· = workflow)).map fun _ => ambiguous workflow

/-- Noting nothing leaves the report as it is. -/
@[simp] theorem noting_nil (r : GraphReport) : noting workflow r [] = r := by
  simp [noting]

/-- Identifiers are noted one after the other. -/
@[simp] theorem noting_append (r : GraphReport) (ids more : List String) :
    noting workflow r (ids ++ more) = noting workflow (noting workflow r ids) more := by
  simp [noting]

variable {app workflow}

/-- The identifier of a node is noted exactly if it was not seen. -/
theorem note_ok {n : WorkflowNode} {r r' : GraphReport} :
    note workflow n r = .ok r' ↔
      (∀ id ∈ n.id?.toList, id ∉ r.ids) ∧ r' = noting workflow r n.id?.toList := by
  rw [note]
  cases n.id? with
  | none => simp [noting_nil, eq_comm]
  | some id =>
    -- Noting one identifier adds it, and the warning if the workflow has the same name.
    have hnoted : noting workflow r [id] = ⟨r.ids ++ [id],
        if id = workflow then r.warnings ++ [ambiguous workflow] else r.warnings⟩ := by
      by_cases h : id = workflow <;> simp [noting, h]
    simp only [Option.toList_some, List.mem_singleton, forall_eq, hnoted]
    by_cases hseen : id ∈ r.ids
    · simp [hseen]
    · simp [hseen, eq_comm]

/-- A visit is fine exactly if the node is and its identifier is new, which is then noted. -/
theorem visit_ok {n : WorkflowNode} {r r' : GraphReport} :
    visit app workflow r n = .ok r' ↔ inspect app workflow n = .ok () ∧
      (∀ id ∈ n.id?.toList, id ∉ r.ids) ∧ r' = noting workflow r n.id?.toList := by
  simp only [visit, bind_ok, note_ok, Failing.pure_eq, Except.ok.injEq]
  constructor
  · rintro ⟨_, ⟨hfresh, rfl⟩, _, hown, rfl⟩
    exact ⟨hown, hfresh, rfl⟩
  · rintro ⟨hown, hfresh, rfl⟩
    exact ⟨_, ⟨hfresh, rfl⟩, (), hown, rfl⟩

/-- Visits accept nodes exactly if each satisfies what it has to by itself and no identifier comes
twice, counting those that were seen before; the report then goes on with theirs. -/
theorem foldlM_visit_ok {ns : List WorkflowNode} {r r' : GraphReport} :
    ns.foldlM (visit app workflow) r = .ok r' ↔ (∀ n ∈ ns, inspect app workflow n = .ok ()) ∧
      (identifiers ns).Nodup ∧ (∀ id ∈ identifiers ns, id ∉ r.ids) ∧
      r' = noting workflow r (identifiers ns) := by
  induction ns generalizing r with
  | nil => simp [identifiers, noting_nil, Failing.pure_eq, eq_comm]
  | cons n rest ih =>
    rw [List.foldlM_cons, bind_ok, identifiers_cons, List.nodup_append, List.forall_mem_cons]
    constructor
    · rintro ⟨mid, hvisit, hrest⟩
      obtain ⟨hown, hfresh, rfl⟩ := visit_ok.1 hvisit
      obtain ⟨hall, hnodup, hlater, rfl⟩ := ih.1 hrest
      -- what comes later is new even to the report that has this node's identifier
      have hnew : ∀ id ∈ identifiers rest, id ∉ r.ids ∧ id ∉ n.id?.toList := fun id hid =>
        not_or.1 fun h => hlater id hid (List.mem_append.2 h)
      refine ⟨⟨hown, hall⟩, ⟨?_, hnodup, ?_⟩, ?_, (noting_append workflow r _ _).symm⟩
      · cases n.id? <;> simp
      · rintro a ha b hb rfl
        exact (hnew a hb).2 ha
      · intro id hid
        rcases List.mem_append.1 hid with hid | hid
        · exact hfresh id hid
        · exact (hnew id hid).1
    · rintro ⟨⟨hown, hall⟩, ⟨-, hnodup, hapart⟩, hnew, rfl⟩
      have hfresh : ∀ id ∈ n.id?.toList, id ∉ r.ids := fun id hid =>
        hnew id (List.mem_append_left _ hid)
      refine ⟨_, visit_ok.2 ⟨hown, hfresh, rfl⟩, ih.2 ⟨hall, hnodup, ?_, ?_⟩⟩
      · intro id hid hseen
        rcases List.mem_append.1 hseen with hseen | hseen
        · exact hnew id (List.mem_append_right _ hid) hseen
        · exact hapart id hseen id hid rfl
      · exact noting_append workflow r _ _

end WorkflowNode

/-! ## Valid workflows -/

/-- The nodes of the whole tree. -/
def WorkflowSpec.walk (w : WorkflowSpec) : List WorkflowNode := WorkflowNode.walkNodes w.nodes

/-- The identifiers of all nodes, in the order of the walk; a fork need not have one. -/
def WorkflowSpec.identifiers (w : WorkflowSpec) : List String := WorkflowNode.identifiers w.walk

namespace ApplicationSpec

/-- An action may run the program: a custom action, or one that is declared under its name in the
map of its kind. -/
def MayRun (a : ApplicationSpec) (p : ProgramRef) : Prop :=
  p.kind = .customAction ∨ p.kind = .mapReduce ∧ p.name ∈ a.mapReduce.keys ∨
    p.kind = .spark ∧ p.name ∈ a.spark.keys

/-- A workflow that the application may declare. -/
structure Sound (a : ApplicationSpec) (w : WorkflowSpec) : Prop where
  /-- No identifier comes twice in the whole tree. -/
  distinct : w.identifiers.Nodup
  programs : ∀ id p, .action id p ∈ w.walk → a.MayRun p
  branches : ∀ id, .fork id [] ∉ w.walk

/-- A program is fine to run exactly if the application may run it. -/
theorem checkProgram_ok {a : ApplicationSpec} {workflow : String} {p : ProgramRef} :
    WorkflowNode.checkProgram a workflow p = .ok () ↔ a.MayRun p := by
  obtain ⟨kind, name⟩ := p
  rw [MayRun, ← NameMap.contains_iff_mem_keys, ← NameMap.contains_iff_mem_keys]
  cases kind with
  | mapReduce => cases h : a.mapReduce.contains name <;>
      simp [WorkflowNode.checkProgram, hasProgram, h]
  | spark => cases h : a.spark.contains name <;>
      simp [WorkflowNode.checkProgram, hasProgram, h]
  | _ => simp [WorkflowNode.checkProgram]

/-- A node is fine exactly if it runs what may be run and is no fork without branches. -/
theorem inspect_ok {a : ApplicationSpec} {workflow : String} {n : WorkflowNode} :
    n.inspect a workflow = .ok () ↔
      (∀ id p, n = .action id p → a.MayRun p) ∧ ∀ id, n ≠ .fork id [] := by
  cases n with
  | action id p => simp [WorkflowNode.inspect, checkProgram_ok]
  | fork id branches => cases branches <;> simp [WorkflowNode.inspect, Failing.throw_eq]
  | condition id p yes no => simp [WorkflowNode.inspect]

/-- The check visits the nodes of the walk, one after the other. -/
theorem checkWorkflow_eq_foldlM (a : ApplicationSpec) (w : WorkflowSpec) :
    a.checkWorkflow w = w.walk.foldlM (WorkflowNode.visit a w.name) {} :=
  WorkflowNode.checkNodes_eq_foldlM a w.name {} w.nodes

/-- A valid workflow is accepted, and nothing else is; the report is that of the whole tree. -/
theorem checkWorkflow_ok {a : ApplicationSpec} {w : WorkflowSpec} {r : GraphReport} :
    a.checkWorkflow w = .ok r ↔ a.Sound w ∧ r = WorkflowNode.noting w.name {} w.identifiers := by
  rw [checkWorkflow_eq_foldlM, WorkflowNode.foldlM_visit_ok]
  simp only [inspect_ok, List.not_mem_nil, not_false_eq_true, implies_true, true_and]
  constructor
  · rintro ⟨hown, hdistinct, rfl⟩
    refine ⟨⟨hdistinct, fun id p h => (hown _ h).1 id p rfl, fun id h => ?_⟩, rfl⟩
    exact (hown _ h).2 id rfl
  · rintro ⟨h, rfl⟩
    refine ⟨fun n hn => ⟨?_, ?_⟩, h.distinct, rfl⟩
    · rintro id p rfl
      exact h.programs id p hn
    · rintro id rfl
      exact h.branches id hn

/-- Where no identifier comes twice, at most one node is named like the workflow. -/
theorem warnings_of_nodup {workflow : String} {ids : List String} (h : ids.Nodup) :
    (WorkflowNode.noting workflow {} ids).warnings =
      if workflow ∈ ids then [WorkflowNode.ambiguous workflow] else [] := by
  show [] ++ _ = _
  rw [List.nil_append, List.filter_eq, h.count]
  split <;> rfl

/-- **Exactly the valid workflows are accepted.** The report on one has the identifiers of the
whole tree, counts the nodes that carry one, and warns once if a node is named like the workflow. -/
theorem sound_workflows_accepted (a : ApplicationSpec) (w : WorkflowSpec) :
    ((∃ r, a.checkWorkflow w = .ok r) ↔ a.Sound w) ∧
      ∀ r, a.checkWorkflow w = .ok r →
        (∀ id, id ∈ r.ids ↔ ∃ n ∈ w.walk, n.id? = some id) ∧
        r.count = w.walk.countP (·.id?.isSome) ∧
        r.warnings = if ∃ n ∈ w.walk, n.id? = some w.name
          then [WorkflowNode.ambiguous w.name] else [] := by
  have hmem : ∀ id, id ∈ w.identifiers ↔ ∃ n ∈ w.walk, n.id? = some id := fun id =>
    List.mem_filterMap
  constructor
  · simp only [checkWorkflow_ok, exists_and_left, exists_eq, and_true]
  · intro r h
    obtain ⟨hsound, rfl⟩ := checkWorkflow_ok.1 h
    refine ⟨hmem, ?_, ?_⟩
    · exact WorkflowNode.length_identifiers w.walk
    · rw [warnings_of_nodup hsound.distinct]
      simp only [hmem]

/-- A fork without an identifier whose branches hold a program, and a condition that is named like
the workflow. -/
theorem nested_workflow_accepted :
    let count : ProgramSpec := { name := "count", kind := .mapReduce }
    let app : ApplicationSpec := { name := "app", mapReduce := .ofList [("count", count)] }
    let nodes : List WorkflowNode :=
      [.fork none [[.action "a" ⟨.mapReduce, "count"⟩],
        [.condition "flow" none [.action "b" ⟨.customAction, "clean"⟩] []]]]
    let flow : WorkflowSpec := { name := "flow", nodes := nodes }
    app.Sound flow ∧ ∃ r, app.checkWorkflow flow = .ok r ∧ r.count = 3 ∧
      r.warnings = [WorkflowNode.ambiguous "flow"] := by
  intro count app nodes flow
  have hrun : app.checkWorkflow flow =
      .ok ⟨["a", "flow", "b"], [WorkflowNode.ambiguous "flow"]⟩ := by decide +kernel
  obtain ⟨haccepted, hreport⟩ := sound_workflows_accepted app flow
  obtain ⟨-, hcount, hwarnings⟩ := hreport _ hrun
  have hnamed : ∃ n ∈ flow.walk, n.id? = some flow.name :=
    ⟨.condition "flow" none [.action "b" ⟨.customAction, "clean"⟩] [],
      by simp [flow, nodes, WorkflowSpec.walk, WorkflowNode.walkNodes, WorkflowNode.walk,
        WorkflowNode.walkBranches], rfl⟩
  exact ⟨haccepted.1 ⟨_, hrun⟩, _, hrun, hcount.trans rfl, hwarnings.trans (if_pos hnamed)⟩

end ApplicationSpec

end Deployment
