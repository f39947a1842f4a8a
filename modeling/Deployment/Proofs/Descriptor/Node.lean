import Deployment.Descriptor.Workflow
import Deployment.Proofs.Json.SetAside

/-! # Nodes of workflows are read back

A node is written as an object whose first member is the kind of the node. Its other members are
set aside until the kind is known and are then read from what was kept, and with them the nodes
that stand in the node.

* **`WorkflowNode.children`**, **`WorkflowNode.induction_children`** — the nodes in a node, and
  the induction over them.
* **`WorkflowNode.ofParts_members`** — a node is read from its members if the nodes in it are.
* **`WorkflowNode.ofLevels_setAside`** — a node that was set aside is read back.
* **`WorkflowNode.faithful`** — a node is read back from its text. -/

namespace Deployment

open Json (Textual BehindTag setAsideItems setAsideMembers)

/-- A program reference that was set aside is read back. -/
@[simp] theorem ProgramRef.fromBuffered_setAside (p : ProgramRef) :
    layout.fromBuffered (layout.write p).setAside = .ok p := by
  obtain ⟨kind, name⟩ := p
  cases kind <;> rfl

/-- A program that a node refers to is written without numbers. -/
theorem ProgramRef.textual (p : ProgramRef) : (layout.write p).Textual :=
  .object (List.forall_mem_cons.2 ⟨.text _, List.forall_mem_cons.2 ⟨.text _, nofun⟩⟩)

namespace WorkflowNode

/-! ## The nodes in a node -/

/-- The nodes that stand directly in a node. -/
def children : WorkflowNode → List WorkflowNode
  | .action _ _ => []
  | .fork _ branches => branches.flatten
  | .condition _ _ yes no => yes ++ no

/-- A child is smaller than its node, so that what follows can be proved down the tree. -/
theorem sizeOf_child {n c : WorkflowNode} (h : c ∈ n.children) : sizeOf c < sizeOf n := by
  cases n with
  | action id p => exact absurd h List.not_mem_nil
  | fork id branches =>
    obtain ⟨b, hb, hc⟩ := List.mem_flatten.1 h
    have h₁ := List.sizeOf_lt_of_mem hb
    have h₂ := List.sizeOf_lt_of_mem hc
    simp only [fork.sizeOf_spec]
    omega
  | condition id p yes no =>
    simp only [condition.sizeOf_spec]
    rcases List.mem_append.1 h with h | h <;>
    · have h₁ := List.sizeOf_lt_of_mem h
      omega

/-- What holds of a node whenever it holds of the nodes in it holds of every node. -/
@[elab_as_elim]
theorem induction_children {motive : WorkflowNode → Prop}
    (node : ∀ n : WorkflowNode, (∀ c ∈ n.children, motive c) → motive n) (n : WorkflowNode) :
    motive n :=
  node n fun c h =>
    have : sizeOf c < sizeOf n := sizeOf_child h
    induction_children node c
termination_by n

/-! ## What a node is written to -/

/-- Nodes are written one by one. -/
theorem nodesToJson_eq (nodes : List WorkflowNode) : nodesToJson nodes = nodes.map toJson := by
  induction nodes with
  | nil => rfl
  | cons n rest ih => rw [nodesToJson, ih, List.map_cons]

/-- Branches are written one by one, each as the list of its nodes. -/
theorem branchesToJson_eq (branches : List (List WorkflowNode)) :
    branchesToJson branches = branches.map fun b => .list (nodesToJson b) := by
  induction branches with
  | nil => rfl
  | cons b rest ih => rw [branchesToJson, ih, List.map_cons]

/-- The name of the kind of a node. -/
def kind : WorkflowNode → String
  | .action _ _ => "action"
  | .fork _ _ => "fork"
  | .condition _ _ _ _ => "condition"

/-- The kind of a node is one of those that are known. -/
theorem kind_mem_kinds (n : WorkflowNode) : n.kind ∈ kinds := by
  cases n with
  | action id p => exact .head _
  | fork id branches => exact .tail _ (.head _)
  | condition id p yes no => exact .tail _ (.tail _ (.head _))

/-- The members that a node is written to behind its kind. -/
def members : WorkflowNode → List (String × Json)
  | .action id program => [("id", .text id), ("program", ProgramRef.layout.write program)]
  | .fork none branches => [("branches", .list (branchesToJson branches))]
  | .fork (some id) branches =>
    [("id", .text id), ("branches", .list (branchesToJson branches))]
  | .condition id none yes no =>
    [("id", .text id), ("if_branch", .list (nodesToJson yes)),
      ("else_branch", .list (nodesToJson no))]
  | .condition id (some p) yes no =>
    [("id", .text id), ("predicate", .text p), ("if_branch", .list (nodesToJson yes)),
      ("else_branch", .list (nodesToJson no))]

/-- A node is written with its kind in front of its members. -/
theorem toJson_eq (n : WorkflowNode) :
    n.toJson = .object (("node", .text n.kind) :: n.members) := by
  cases n with
  | action id p => rfl
  | fork id branches => cases id <;> rfl
  | condition id p yes no => cases p <;> rfl

/-- Nodes that are written without numbers are so together. -/
theorem textual_nodes {nodes : List WorkflowNode} (h : ∀ n ∈ nodes, n.toJson.Textual) :
    (Json.list (nodesToJson nodes)).Textual := by
  rw [nodesToJson_eq]
  exact .list (List.forall_mem_map.2 h)

/-- The members of a node behind its kind are texts, lists and objects if the nodes in it are. -/
theorem behindTag_members {n : WorkflowNode} (h : ∀ c ∈ n.children, c.toJson.Textual) :
    BehindTag "node" n.members := by
  cases n with
  | action id p =>
    exact ⟨by simp [members], by simp [members, Textual.text, ProgramRef.textual]⟩
  | fork id branches =>
    have hbranches : (Json.list (branchesToJson branches)).Textual := by
      rw [branchesToJson_eq]
      exact .list (List.forall_mem_map.2 fun b hb => textual_nodes fun c hc =>
        h c (List.mem_flatten.2 ⟨b, hb, hc⟩))
    cases id <;> exact ⟨by simp [members], by simp [members, Textual.text, hbranches]⟩
  | condition id p yes no =>
    have hyes := textual_nodes fun c hc => h c (List.mem_append_left no hc)
    have hno := textual_nodes fun c hc => h c (List.mem_append_right yes hc)
    cases p <;> exact ⟨by simp [members], by simp [members, Textual.text, hyes, hno]⟩

/-- A node is an object of texts, lists and objects. -/
theorem textual (n : WorkflowNode) : n.toJson.Textual := by
  induction n using induction_children with
  | node n ih =>
    rw [toJson_eq]
    exact .object (List.forall_mem_cons.2 ⟨.text _, (behindTag_members ih).textual⟩)

/-- No member of a node has the name of its kind. -/
theorem behindTag (n : WorkflowNode) : BehindTag "node" n.members :=
  behindTag_members fun c _ => textual c

/-- The kind of a node adds nothing to its depth. -/
@[simp] theorem depth_toJson (n : WorkflowNode) :
    n.toJson.depth = Json.depthMembers n.members + 1 := by
  have hkind : (Json.text n.kind).depth = 0 := rfl
  rw [toJson_eq, Json.depth, Json.depthMembers, hkind, Nat.zero_max]

/-- A list of nodes is nested deeper than each of them. -/
theorem depth_lt_nodes {nodes : List WorkflowNode} {c : WorkflowNode} (h : c ∈ nodes) :
    c.toJson.depth < (Json.list (nodesToJson nodes)).depth := by
  rw [nodesToJson_eq]
  exact Nat.lt_succ_of_le (Json.depth_le_depthItems (List.mem_map_of_mem h))

/-- A node is nested deeper than each of its members. -/
theorem depth_lt_toJson {n : WorkflowNode} {m : String × Json} (h : m ∈ n.members) :
    m.2.depth < n.toJson.depth := by
  rw [depth_toJson]
  exact Nat.lt_succ_of_le (Json.depth_le_depthMembers h)

/-- The nodes in a node are nested less deep than the node. -/
theorem depth_child {n c : WorkflowNode} (h : c ∈ n.children) :
    c.toJson.depth < n.toJson.depth := by
  cases n with
  | action id p => exact absurd h List.not_mem_nil
  | fork id branches =>
    obtain ⟨b, hb, hc⟩ := List.mem_flatten.1 h
    -- A child lies in a branch, and the branch in the list of branches: two levels.
    have hbranch : (Json.list (nodesToJson b)).depth <
        (Json.list (branchesToJson branches)).depth := by
      rw [branchesToJson_eq]
      exact Nat.lt_succ_of_le (Json.depth_le_depthItems
        (List.mem_map_of_mem (f := fun b => Json.list (nodesToJson b)) hb))
    refine Nat.lt_trans (depth_lt_nodes hc) (Nat.lt_trans hbranch ?_)
    exact depth_lt_toJson (m := ("branches", _)) (by cases id <;> simp [members])
  | condition id p yes no =>
    rcases List.mem_append.1 h with hc | hc
    · refine Nat.lt_trans (depth_lt_nodes hc) ?_
      exact depth_lt_toJson (m := ("if_branch", _)) (by cases p <;> simp [members])
    · refine Nat.lt_trans (depth_lt_nodes hc) ?_
      exact depth_lt_toJson (m := ("else_branch", _)) (by cases p <;> simp [members])

/-! ## Reading -/

/-- A node is read from the members that it is written to if the nodes in it are read back. -/
theorem ofParts_members {node : Buffered → Except Mismatch WorkflowNode} {n : WorkflowNode}
    (h : ∀ c ∈ n.children, node c.toJson.setAside = .ok c) :
    ofParts node n.kind (.table (setAsideMembers n.members)) = .ok n := by
  -- Lists of children read back child by child.
  have hnodes : ∀ nodes : List WorkflowNode, (∀ c ∈ nodes, c ∈ n.children) →
      Buffered.readList node (.list (setAsideItems (nodesToJson nodes))) = .ok nodes := by
    intro nodes hin
    rw [nodesToJson_eq]
    exact Buffered.readList_setAside fun c hc => h c (hin c hc)
  cases n with
  | action id p =>
    have hprogram := ProgramRef.fromBuffered_setAside p
    simp [kind, members, setAsideMembers, Json.setAside, ofParts, part, Buffered.readRecord,
      Buffered.readEntries, Buffered.chosenField, Buffered.readText, Slot.names, Slot.find?,
      Slot.missing?, Failing.ok_bind, Failing.pure_eq, hprogram]
  | fork id branches =>
    have hbranches : Buffered.readList (Buffered.readList node)
        (.list (setAsideItems (branchesToJson branches))) = .ok branches := by
      rw [branchesToJson_eq]
      refine Buffered.readList_setAside fun b hb => hnodes b fun c hc => ?_
      exact List.mem_flatten.2 ⟨b, hb, hc⟩
    cases id <;>
      simp [kind, members, setAsideMembers, Json.setAside, ofParts, part, Buffered.readRecord,
        Buffered.readEntries, Buffered.chosenField, Buffered.readOptional, Buffered.readText,
        Slot.names, Slot.find?, Slot.missing?, Failing.ok_bind, Failing.pure_eq, hbranches]
  | condition id p yes no =>
    have hyes := hnodes yes fun c hc => List.mem_append_left no hc
    have hno := hnodes no fun c hc => List.mem_append_right yes hc
    cases p <;>
      simp [kind, members, setAsideMembers, Json.setAside, ofParts, part, Buffered.readRecord,
        Buffered.readEntries, Buffered.chosenField, Buffered.readOptional, Buffered.readText,
        Slot.names, Slot.find?, Slot.missing?, Failing.ok_bind, Failing.pure_eq, hyes, hno]

/-- A node that was set aside is read back, with levels enough for the nodes in it. -/
theorem ofLevels_setAside (n : WorkflowNode) {levels : Nat} (h : n.toJson.depth < levels) :
    ofLevels levels n.toJson.setAside = .ok n := by
  induction n using induction_children generalizing levels with
  | node n ih =>
    obtain ⟨levels, rfl⟩ : ∃ k, levels = k + 1 := ⟨levels - 1, by omega⟩
    rw [ofLevels, toJson_eq, Buffered.readTagged_setAside n.kind_mem_kinds n.behindTag]
    exact ofParts_members fun c hc =>
      ih c hc (Nat.lt_of_lt_of_le (depth_child hc) (Nat.le_of_lt_succ h))

/-- A node is read back from its kind and what was set aside behind it. -/
@[simp] theorem ofTagged_members (n : WorkflowNode) :
    ofTagged n.kind (.table (setAsideMembers n.members)) = .ok n := by
  refine ofParts_members fun c hc => ofLevels_setAside c ?_
  have hdepth := depth_child hc
  rw [depth_toJson n] at hdepth
  rw [Buffered.depth, Json.depth_setAsideMembers]
  exact Nat.lt_succ_of_lt hdepth

/-- A node is read back from its text. -/
theorem faithful (n : WorkflowNode) : layout.Faithful n := by
  have hwrite : layout.write n = .object (("node", .text n.kind) :: n.members) := n.toJson_eq
  have hdepth : (layout.write n).depth = Json.depthMembers n.members + 1 := n.depth_toJson
  rw [Json.Form.Faithful, hdepth]
  refine Json.Form.restores_succ fun levels hlevels blanks bytes rest hb hs he => ?_
  rw [hwrite] at hs
  refine .bind (Json.Reader.finds_tagged n.kind_mem_kinds n.behindTag hlevels
    blanks bytes rest hb hs he) ?_
  exact Json.Reader.gives_ofExcept n.ofTagged_members

end WorkflowNode

end Deployment
