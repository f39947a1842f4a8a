import Deployment.Verification.Fault

/-! # Valid workflows

The nodes of a workflow are walked depth first: a node before its contents, branches from left to
right. No identifier may come twice in the whole tree, an action has to run a program that there
is, and a fork needs a branch.

* **`GraphReport`** — what a walk has seen.
* **`ApplicationSpec.checkWorkflow`** — the report on a workflow, or the first fault on the way. -/

namespace Deployment

/-- What a walk over a workflow has seen. -/
structure GraphReport where
  /-- The identifiers, in the order of the walk. -/
  ids : List String := []
  warnings : List String := []
  deriving DecidableEq, Repr

/-- How many identifiers a walk has seen. -/
def GraphReport.count (r : GraphReport) : Nat := r.ids.length

namespace WorkflowNode

/-- The warning for a node that is named like its workflow. -/
def ambiguous (workflow : String) : String :=
  "node used in workflow has the same name as the workflow '" ++ workflow ++
    "'; token lookups for this node will be ambiguous"

/-- Note the identifier of a node, which must not have been seen. -/
def note (workflow : String) (n : WorkflowNode) (r : GraphReport) :
    Except GraphFault GraphReport :=
  match n.id? with
  | none => .ok r
  | some id =>
    if r.ids.contains id then .error (.duplicateNode id workflow)
    else .ok
      { ids := r.ids ++ [id]
        warnings := if id = workflow then r.warnings ++ [ambiguous workflow] else r.warnings }

/-- The program that an action runs has to be declared, if it is one that is declared. -/
def checkProgram (app : ApplicationSpec) (workflow : String) (p : ProgramRef) :
    Except GraphFault Unit :=
  match p.kind with
  | .mapReduce | .spark =>
    if app.hasProgram p.kind p.name then .ok () else .error (.missingProgram p.kind p.name)
  | .customAction => .ok ()
  | _ => .error (.unknownProgram p.kind p.name workflow)

mutual

/-- Walk over a node and its contents. -/
def check (app : ApplicationSpec) (workflow : String) (r : GraphReport) :
    WorkflowNode → Except GraphFault GraphReport
  | .action id p => do
    let r ← note workflow (.action id p) r
    checkProgram app workflow p
    return r
  | .fork id [] => do
    let _ ← note workflow (.fork id []) r
    throw (.emptyFork workflow)
  | .fork id (b :: rest) => do
    let r ← note workflow (.fork id (b :: rest)) r
    checkBranches app workflow r (b :: rest)
  | .condition id p yes no => do
    let r ← note workflow (.condition id p yes no) r
    let r ← checkNodes app workflow r yes
    checkNodes app workflow r no

/-- Walk over a list of nodes. -/
def checkNodes (app : ApplicationSpec) (workflow : String) (r : GraphReport) :
    List WorkflowNode → Except GraphFault GraphReport
  | [] => return r
  | n :: rest => do checkNodes app workflow (← check app workflow r n) rest

/-- Walk over the branches of a fork. -/
def checkBranches (app : ApplicationSpec) (workflow : String) (r : GraphReport) :
    List (List WorkflowNode) → Except GraphFault GraphReport
  | [] => return r
  | b :: rest => do checkBranches app workflow (← checkNodes app workflow r b) rest

end

end WorkflowNode

/-- The report on a workflow of the application, or the first fault in it. -/
def ApplicationSpec.checkWorkflow (a : ApplicationSpec) (w : WorkflowSpec) :
    Except GraphFault GraphReport :=
  WorkflowNode.checkNodes a w.name {} w.nodes

end Deployment
