import Deployment.Descriptor.Dataset
import Deployment.Descriptor.Workflow
import Deployment.Identifier

/-! # Applications

The descriptor of an application: the programs, datasets and schedules that an archive deploys.

* **`ScheduleSpec`** — a schedule of a workflow.
* **`ApplicationSpec`** — the descriptor, and the ways to build one up.
* **`ApplicationSpec.programs`** — everything that runs, in order. -/

namespace Deployment

/-- A schedule of a workflow. -/
structure ScheduleSpec where
  name : String
  description : String := ""
  program : String
  properties : Properties := .empty
  deriving DecidableEq, Repr

/-- A schedule as a descriptor holds it. -/
def ScheduleSpec.layout : Layout ScheduleSpec :=
  .record "struct ScheduleCreationSpec"
    [.of "name" true .text (·.name) (fun v s => { s with name := v }),
     .of "description" false .text (·.description) (fun v s => { s with description := v }),
     .of "program_name" true .text (·.program) (fun v s => { s with program := v }),
     .of "properties" false Properties.layout (·.properties)
       (fun v s => { s with properties := v })]
    { name := "", program := "" }

/-- The descriptor of an application. -/
structure ApplicationSpec where
  name : String
  version : String := defaultVersion
  description : String := ""
  mapReduce : NameMap ProgramSpec := .empty
  spark : NameMap ProgramSpec := .empty
  workflows : NameMap WorkflowSpec := .empty
  datasets : NameMap DatasetSpec := .empty
  schedules : NameMap ScheduleSpec := .empty
  deriving Repr

/-- A program or a workflow, as far as both are programs. -/
structure Program where
  name : String
  kind : ProgramKind
  deriving DecidableEq, Repr

/-- A program specification as a program. -/
def ProgramSpec.toProgram (p : ProgramSpec) : Program := ⟨p.name, p.kind⟩

/-- A workflow as a program. -/
def WorkflowSpec.toProgram (w : WorkflowSpec) : Program := ⟨w.name, .workflow⟩

namespace ApplicationSpec

/-- A descriptor as a JSON object or a YAML document. -/
def layout : Layout ApplicationSpec :=
  .record "struct ApplicationSpecification"
    [.of "name" true .text (·.name) (fun v a => { a with name := v }),
     .of "version" false .text (·.version) (fun v a => { a with version := v }),
     .of "description" false .text (·.description) (fun v a => { a with description := v }),
     .of "mapreduce" false (.table ProgramSpec.layout) (·.mapReduce)
       (fun v a => { a with mapReduce := v }),
     .of "spark" false (.table ProgramSpec.layout) (·.spark) (fun v a => { a with spark := v }),
     .of "workflows" false (.table WorkflowSpec.layout) (·.workflows)
       (fun v a => { a with workflows := v }),
     .of "datasets" false (.table DatasetSpec.layout) (·.datasets)
       (fun v a => { a with datasets := v }),
     .of "schedules" false (.table ScheduleSpec.layout) (·.schedules)
       (fun v a => { a with schedules := v })]
    { name := "" }

/-- The descriptor at another version. -/
def withVersion (a : ApplicationSpec) (version : String) : ApplicationSpec :=
  { a with version := version }

/-- Declare a program; only MapReduce and Spark programs are declared on their own. -/
def withProgram (a : ApplicationSpec) (p : ProgramSpec) : ApplicationSpec :=
  match p.kind with
  | .mapReduce => { a with mapReduce := a.mapReduce.insert p.name p }
  | .spark => { a with spark := a.spark.insert p.name p }
  | _ => a

/-- Declare a workflow. -/
def withWorkflow (a : ApplicationSpec) (w : WorkflowSpec) : ApplicationSpec :=
  { a with workflows := a.workflows.insert w.name w }

/-- Declare a dataset. -/
def withDataset (a : ApplicationSpec) (d : DatasetSpec) : ApplicationSpec :=
  { a with datasets := a.datasets.insert d.name d }

/-- Declare a schedule. -/
def withSchedule (a : ApplicationSpec) (s : ScheduleSpec) : ApplicationSpec :=
  { a with schedules := a.schedules.insert s.name s }

/-- A program of a kind is declared under a name. -/
def hasProgram (a : ApplicationSpec) (kind : ProgramKind) (name : String) : Bool :=
  match kind with
  | .mapReduce => a.mapReduce.contains name
  | .spark => a.spark.contains name
  | .workflow => a.workflows.contains name
  | _ => false

/-- Everything that runs, under the name it is declared by: MapReduce programs, then Spark
programs, then workflows. -/
def programs (a : ApplicationSpec) : List (String × Program) :=
  (a.mapReduce.map (·.toProgram)).entries ++ (a.spark.map (·.toProgram)).entries ++
    (a.workflows.map (·.toProgram)).entries

/-- The names of everything that runs. -/
def programNames (a : ApplicationSpec) : List String := a.programs.map (·.2.name)

end ApplicationSpec

end Deployment
