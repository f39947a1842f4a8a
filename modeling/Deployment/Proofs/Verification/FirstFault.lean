import Deployment.Proofs.Verification.Walk

/-! # The first fault on a walk

A workflow that is not valid may be so at many places. What is reported is the first one on the
walk; whatever is right or wrong behind it does not matter.

* **`WorkflowNode.Breaks`** — a node breaks a rule of its own.
* **`WorkflowNode.Violates`** — it does, or repeats an identifier, which counts first.
* **`WorkflowNode.visit_error`** — the visit of a node reports just that.
* **`WorkflowNode.Clean`** — nothing on the way is to be reported.
* **`WorkflowNode.foldlM_visit_error`** — visits report the first node that violates a rule.
* **`first_violation_reported`** — so does the check of a workflow. -/

namespace Deployment

namespace WorkflowNode

/-- A node breaks a rule of its own: its action runs a program that is not declared, or one of a
kind that no action runs, or it is a fork without branches. -/
inductive Breaks (a : ApplicationSpec) (workflow : String) : WorkflowNode → GraphFault → Prop
  | missing {id : String} {p : ProgramRef}
      (undeclared : p.kind = .mapReduce ∧ p.name ∉ a.mapReduce.keys ∨
        p.kind = .spark ∧ p.name ∉ a.spark.keys) :
      Breaks a workflow (.action id p) (.missingProgram p.kind p.name)
  | unknown {id : String} {p : ProgramRef}
      (unfit : p.kind = .workflow ∨ p.kind = .service ∨ p.kind = .worker) :
      Breaks a workflow (.action id p) (.unknownProgram p.kind p.name workflow)
  | emptyFork {id : Option String} : Breaks a workflow (.fork id []) (.emptyFork workflow)

/-- A node behind others violates a rule. That it repeats an identifier counts before the rules of
its own. -/
inductive Violates (a : ApplicationSpec) (workflow : String) (before : List WorkflowNode)
    (n : WorkflowNode) : GraphFault → Prop
  | repeated {id : String} (named : n.id? = some id) (seen : ∃ m ∈ before, m.id? = some id) :
      Violates a workflow before n (.duplicateNode id workflow)
  | own {f : GraphFault} (fresh : ∀ id, n.id? = some id → ∀ m ∈ before, m.id? ≠ some id)
      (breaks : Breaks a workflow n f) : Violates a workflow before n f

/-! ## The visit of one node -/

variable {a : ApplicationSpec} {workflow : String} {n : WorkflowNode} {f : GraphFault}
  {r r' : GraphReport} {seen ns : List WorkflowNode}

/-- A fault ends a sequence of checks, or comes from the rest of it. -/
theorem bind_error {α β : Type} {x : Except GraphFault α} {g : α → Except GraphFault β} :
    (x >>= g) = .error f ↔ x = .error f ∨ ∃ v, x = .ok v ∧ g v = .error f := by
  cases x with
  | ok v => simp [Failing.ok_bind]
  | error e => simp [Failing.error_bind]

/-- A node cannot be noted exactly if its identifier was noted before. -/
theorem note_error : note workflow n r = .error f ↔
    ∃ id, n.id? = some id ∧ id ∈ r.ids ∧ f = .duplicateNode id workflow := by
  rw [note]
  cases n.id? with
  | none => simp
  | some id =>
    by_cases hseen : id ∈ r.ids
    · simp [hseen, eq_comm]
    · simp [hseen]

/-- A program is refused exactly if an action that runs it breaks a rule, with the fault of that. -/
theorem checkProgram_error {id : String} {p : ProgramRef} :
    checkProgram a workflow p = .error f ↔ Breaks a workflow (.action id p) f := by
  obtain ⟨kind, name⟩ := p
  constructor
  · intro h
    cases kind with
    | mapReduce =>
      by_cases hin : a.mapReduce.contains name
      · cases (if_pos hin).symm.trans h
      · cases (if_neg hin).symm.trans h
        exact .missing (.inl ⟨rfl, mt NameMap.contains_iff_mem_keys.2 hin⟩)
    | spark =>
      by_cases hin : a.spark.contains name
      · cases (if_pos hin).symm.trans h
      · cases (if_neg hin).symm.trans h
        exact .missing (.inr ⟨rfl, mt NameMap.contains_iff_mem_keys.2 hin⟩)
    | customAction => cases h
    | workflow => cases h; exact .unknown (.inl rfl)
    | service => cases h; exact .unknown (.inr (.inl rfl))
    | worker => cases h; exact .unknown (.inr (.inr rfl))
  · intro h
    cases h with
    | missing undeclared =>
      obtain ⟨rfl, hno⟩ | ⟨rfl, hno⟩ := undeclared
      all_goals exact if_neg (mt NameMap.contains_iff_mem_keys.1 hno)
    | unknown unfit =>
      obtain rfl | rfl | rfl := unfit
      all_goals rfl

/-- A node is refused exactly if it breaks a rule, with the fault of that. -/
theorem inspect_error : inspect a workflow n = .error f ↔ Breaks a workflow n f := by
  cases n with
  | action id p => exact checkProgram_error
  | fork id branches =>
    cases branches with
    | nil =>
      constructor
      · rintro ⟨⟩
        exact .emptyFork
      · rintro ⟨⟩
        rfl
    | cons b rest => exact ⟨nofun, nofun⟩
  | condition id p yes no => exact ⟨nofun, nofun⟩

/-- The visit of a node reports what the node violates behind those that were seen. -/
theorem visit_error (hr : r.ids = identifiers seen) :
    visit a workflow r n = .error f ↔ Violates a workflow seen n f := by
  have hseen : ∀ id, id ∈ r.ids ↔ ∃ m ∈ seen, m.id? = some id := fun id => by
    rw [hr]
    exact List.mem_filterMap
  simp only [visit, bind_error, note_error, inspect_error, note_ok, Failing.pure_eq, reduceCtorEq,
    and_false, exists_false, or_false]
  constructor
  · -- A repeated identifier comes before anything the node itself breaks.
    rintro (⟨id, hid, hin, rfl⟩ | ⟨_, ⟨hfresh, rfl⟩, hbreaks⟩)
    · exact .repeated hid ((hseen id).1 hin)
    · refine .own (fun id hid m hm hmid => ?_) hbreaks
      exact hfresh id (Option.mem_toList.2 hid) ((hseen id).2 ⟨m, hm, hmid⟩)
  · rintro (⟨hid, hin⟩ | ⟨hfresh, hbreaks⟩)
    · exact .inl ⟨_, hid, (hseen _).2 hin, rfl⟩
    · refine .inr ⟨_, ⟨fun id hid hin => ?_, rfl⟩, hbreaks⟩
      obtain ⟨m, hm, hmid⟩ := (hseen id).1 hin
      exact hfresh id (Option.mem_toList.1 hid) m hm hmid

/-- The report behind a visit has the identifiers of the nodes that were seen. -/
theorem ids_of_visit (hr : r.ids = identifiers seen) (h : visit a workflow r n = .ok r') :
    r'.ids = identifiers (seen ++ [n]) := by
  obtain ⟨-, -, rfl⟩ := visit_ok.1 h
  rw [identifiers, List.filterMap_append, ← identifiers, ← hr, noting]
  cases h : n.id? <;> simp [h]

/-! ## Visits of many nodes -/

/-- None of the nodes behind others violates a rule. -/
def Clean (a : ApplicationSpec) (workflow : String) (seen ns : List WorkflowNode) : Prop :=
  ∀ earlier n later, ns = earlier ++ n :: later → ∀ f, ¬ Violates a workflow (seen ++ earlier) n f

/-- Of no nodes, none violates anything. -/
@[simp] theorem clean_nil : Clean a workflow seen [] := fun earlier n later h => by simp at h

/-- Nodes are clean exactly if the first one is, and the rest after it. -/
@[simp] theorem clean_cons : Clean a workflow seen (n :: ns) ↔
    (∀ f, ¬ Violates a workflow seen n f) ∧ Clean a workflow (seen ++ [n]) ns := by
  constructor
  · intro h
    refine ⟨fun f hf => h [] n ns rfl f (by rwa [List.append_nil]), ?_⟩
    -- What came earlier behind `n` came, counted from before it, behind `n` as well.
    intro earlier m later hns f hf
    refine h (n :: earlier) m later (by rw [hns, List.cons_append]) f ?_
    rwa [List.append_cons]
  · rintro ⟨hn, hns⟩ earlier m later heq f hf
    cases earlier with
    | nil =>
      obtain ⟨rfl, -⟩ := List.cons.inj heq
      exact hn f (by rwa [List.append_nil] at hf)
    | cons n' earlier =>
      obtain ⟨rfl, hrest⟩ := List.cons.inj heq
      exact hns earlier m later hrest f (by rwa [List.append_cons] at hf)

/-- Visits report the first node that violates a rule, counting the nodes that were seen before. -/
theorem foldlM_visit_error (hr : r.ids = identifiers seen) :
    ns.foldlM (visit a workflow) r = .error f ↔ ∃ before n after, ns = before ++ n :: after ∧
      Violates a workflow (seen ++ before) n f ∧ Clean a workflow seen before := by
  -- On the nodes still to come; what has been seen grows by the one just passed.
  induction ns generalizing seen r with
  | nil => simp [Failing.pure_eq]
  | cons m rest ih =>
    rw [List.foldlM_cons, bind_error]
    constructor
    · rintro (hvisit | ⟨mid, hvisit, hrest⟩)
      · refine ⟨[], m, rest, rfl, ?_, clean_nil⟩
        rw [List.append_nil]
        exact (visit_error hr).1 hvisit
      · obtain ⟨before, n, after, rfl, hviolates, hclean⟩ := (ih (ids_of_visit hr hvisit)).1 hrest
        refine ⟨m :: before, n, after, rfl, ?_, clean_cons.2 ⟨fun f' hf' => ?_, hclean⟩⟩
        · rwa [List.append_cons]
        · rw [(visit_error hr).2 hf'] at hvisit
          cases hvisit
    · rintro ⟨before, n, after, heq, hviolates, hclean⟩
      cases before with
      | nil =>
        obtain ⟨rfl, -⟩ := List.cons.inj heq
        exact .inl ((visit_error hr).2 (by rwa [List.append_nil] at hviolates))
      | cons m' before =>
        obtain ⟨rfl, rfl⟩ := List.cons.inj heq
        obtain ⟨hm, hclean⟩ := clean_cons.1 hclean
        -- Were `m` at fault, what comes before the first violation would not be clean.
        cases hvisit : visit a workflow r m with
        | error f' => exact absurd ((visit_error hr).1 hvisit) (hm f')
        | ok mid =>
          refine .inr ⟨mid, rfl, (ih (ids_of_visit hr hvisit)).2
            ⟨before, n, after, rfl, ?_, hclean⟩⟩
          rwa [List.append_cons] at hviolates

end WorkflowNode

/-- A workflow that is not valid is refused for the first node on the walk that repeats the
identifier of an earlier node or breaks a rule of its own, whatever follows it. -/
theorem first_violation_reported (a : ApplicationSpec) (w : WorkflowSpec) :
    (¬ a.Sound w ↔ ∃ f, a.checkWorkflow w = .error f) ∧
    ∀ f, a.checkWorkflow w = .error f ↔
      ∃ before n after, w.walk = before ++ n :: after ∧
        WorkflowNode.Violates a w.name before n f ∧
        ∀ earlier m later, before = earlier ++ m :: later →
          ∀ f', ¬ WorkflowNode.Violates a w.name earlier m f' := by
  constructor
  · have haccepted : a.Sound w ↔ ∃ r, a.checkWorkflow w = .ok r := by
      simp only [ApplicationSpec.checkWorkflow_ok, exists_and_left, exists_eq, and_true]
    rw [haccepted]
    cases a.checkWorkflow w <;> simp
  · intro f
    have hnothing : ({} : GraphReport).ids = WorkflowNode.identifiers [] := rfl
    rw [ApplicationSpec.checkWorkflow_eq_foldlM, WorkflowNode.foldlM_visit_error hnothing]
    rfl

/-- An action that is named like the condition around it is reported, though its program is not
declared either and a fork behind it is empty. -/
example :
    let flow : WorkflowSpec :=
      { name := "flow"
        nodes := [.condition "c" none [] [.action "c" ⟨.spark, "none"⟩], .fork none []] }
    ApplicationSpec.checkWorkflow { name := "app" } flow = .error (.duplicateNode "c" "flow") := by
  decide +kernel

end Deployment
