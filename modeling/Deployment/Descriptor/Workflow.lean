import Deployment.Descriptor.Program

/-! # Workflows

A workflow is a list of nodes. Forks and conditions hold further lists of nodes, so that the
whole is a tree.

* **`ProgramRef`** — the program that an action runs.
* **`WorkflowNode`** — an action, a fork or a condition.
* **`WorkflowSpec`** — a workflow that an application declares. -/

namespace Deployment

/-- A program by kind and name. -/
structure ProgramRef where
  kind : ProgramKind
  name : String
  deriving DecidableEq, Repr

/-- A program reference as a descriptor holds it. -/
def ProgramRef.layout : Layout ProgramRef :=
  .record "struct ScheduleProgramInfo"
    [.of "type" true ProgramKind.layout (·.kind) (fun v p => { p with kind := v }),
     .of "name" true .text (·.name) (fun v p => { p with name := v })]
    ⟨.mapReduce, ""⟩

/-- A node of a workflow. -/
inductive WorkflowNode where
  /-- Run a program. -/
  | action (id : String) (program : ProgramRef)
  /-- Run the branches side by side. -/
  | fork (id : Option String) (branches : List (List WorkflowNode))
  /-- Run one of two branches. -/
  | condition (id : String) (predicate : Option String)
      (ifBranch elseBranch : List WorkflowNode)
  deriving Repr

namespace WorkflowNode

/-- The identifier of a node; a fork need not have one. -/
def id? : WorkflowNode → Option String
  | .action id _ => some id
  | .fork id _ => id
  | .condition id _ _ _ => some id

/-! ## Writing -/

mutual

/-- A node as a JSON object; its kind stands in the member `node`. -/
def toJson : WorkflowNode → Json
  | .action id program =>
    .object [("node", .text "action"), ("id", .text id),
      ("program", ProgramRef.layout.write program)]
  -- An identifier or a predicate that is absent is left out.
  | .fork none branches =>
    .object [("node", .text "fork"), ("branches", .list (branchesToJson branches))]
  | .fork (some id) branches =>
    .object [("node", .text "fork"), ("id", .text id),
      ("branches", .list (branchesToJson branches))]
  | .condition id none yes no =>
    .object [("node", .text "condition"), ("id", .text id),
      ("if_branch", .list (nodesToJson yes)), ("else_branch", .list (nodesToJson no))]
  | .condition id (some p) yes no =>
    .object [("node", .text "condition"), ("id", .text id), ("predicate", .text p),
      ("if_branch", .list (nodesToJson yes)), ("else_branch", .list (nodesToJson no))]

/-- A list of nodes. -/
def nodesToJson : List WorkflowNode → List Json
  | [] => []
  | n :: rest => toJson n :: nodesToJson rest

/-- The branches of a fork. -/
def branchesToJson : List (List WorkflowNode) → List Json
  | [] => []
  | b :: rest => .list (nodesToJson b) :: branchesToJson rest

end

/-! ## Reading -/

/-- The kinds of nodes. -/
def kinds : List String := ["action", "fork", "condition"]

/-- What a refusal calls a node. -/
def expected : String := "internally tagged enum WorkflowNode"

/-- The parts of a node of any kind while it is read. -/
structure Parts where
  id : Option String := none
  program : ProgramRef := ⟨.mapReduce, ""⟩
  branches : List (List WorkflowNode) := []
  predicate : Option String := none
  ifBranch : List WorkflowNode := []
  elseBranch : List WorkflowNode := []

/-- A part of a node under a name. -/
def part {α : Type} (name : String) (required : Bool) (read : Buffered → Except Mismatch α)
    (set : α → Parts → Parts) : Slot (Buffered → Except Mismatch (Parts → Parts)) :=
  ⟨name, required, fun v => set <$> read v⟩

/-- A node of a kind from its parts, which were set aside; `node` reads the nodes inside. -/
def ofParts (node : Buffered → Except Mismatch WorkflowNode) (kind : String) (rest : Buffered) :
    Except Mismatch WorkflowNode := do
  let nodes := Buffered.readList node
  let id := part "id" true Buffered.readText fun v p => { p with id := some v }
  let start : Parts := {}
  if kind = "action" then
    let p ← rest.readRecord "struct variant WorkflowNode::Action"
      [id,
       part "program" true ProgramRef.layout.fromBuffered fun v p => { p with program := v }]
      start
    return .action (p.id.getD "") p.program
  else if kind = "fork" then
    let p ← rest.readRecord "struct variant WorkflowNode::Fork"
      [part "id" false (Buffered.readOptional Buffered.readText) fun v p => { p with id := v },
       part "branches" false (Buffered.readList nodes) fun v p => { p with branches := v }]
      start
    return .fork p.id p.branches
  else
    let p ← rest.readRecord "struct variant WorkflowNode::Condition"
      [id,
       part "predicate" false (Buffered.readOptional Buffered.readText)
         fun v p => { p with predicate := v },
       part "if_branch" false nodes fun v p => { p with ifBranch := v },
       part "else_branch" false nodes fun v p => { p with elseBranch := v }]
      start
    return .condition (p.id.getD "") p.predicate p.ifBranch p.elseBranch

/-- A node that was set aside, at most so many levels deep. -/
def ofLevels : Nat → Buffered → Except Mismatch WorkflowNode
  | 0, v => v.refuse expected
  | levels + 1, v => do
    let (kind, rest) ← v.readTagged expected "node" kinds
    ofParts (ofLevels levels) kind rest

/-- A node that was set aside. -/
def ofBuffered (v : Buffered) : Except Mismatch WorkflowNode := ofLevels (v.depth + 1) v

/-- A node from its kind and its parts. -/
def ofTagged (kind : String) (rest : Buffered) : Except Mismatch WorkflowNode :=
  ofParts (ofLevels (rest.depth + 1)) kind rest

/-- A node as a descriptor holds it. -/
def layout : Layout WorkflowNode where
  read levels := do
    let (kind, rest) ← Json.Reader.tagged expected "node" kinds levels
    Json.Reader.ofExcept (ofTagged kind rest)
  write := toJson
  fromYaml levels path n := do
    let (kind, rest) ← Yaml.Decoder.tagged expected "node" kinds levels path n
    Yaml.Decoder.ofExcept (ofTagged kind rest)
  fromBuffered := ofBuffered

end WorkflowNode

/-- A workflow that an application declares. -/
structure WorkflowSpec where
  name : String
  description : String := ""
  nodes : List WorkflowNode := []
  properties : Properties := .empty
  deriving Repr

/-- A workflow as a descriptor holds it. -/
def WorkflowSpec.layout : Layout WorkflowSpec :=
  .record "struct WorkflowSpecification"
    [.of "name" true .text (·.name) (fun v w => { w with name := v }),
     .of "description" false .text (·.description) (fun v w => { w with description := v }),
     .of "nodes" false (.list WorkflowNode.layout) (·.nodes) (fun v w => { w with nodes := v }),
     .of "properties" false Properties.layout (·.properties)
       (fun v w => { w with properties := v })]
    { name := "" }

end Deployment
