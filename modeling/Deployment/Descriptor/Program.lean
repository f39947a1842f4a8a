import Deployment.Document.Layout

/-! # Programs

* **`ProgramKind`** — the kinds of programs.
* **`ProgramSpec`** — a program that an application declares. -/

namespace Deployment

/-- The kinds of programs. -/
inductive ProgramKind where
  | mapReduce
  | spark
  | workflow
  | customAction
  | service
  | worker
  deriving DecidableEq, Repr

namespace ProgramKind

/-- Every kind, in order. -/
def all : List ProgramKind := [.mapReduce, .spark, .workflow, .customAction, .service, .worker]

/-- The kind as messages name it. -/
def text : ProgramKind → String
  | .mapReduce => "mapreduce"
  | .spark => "spark"
  | .workflow => "workflow"
  | .customAction => "custom_action"
  | .service => "service"
  | .worker => "worker"

/-- The kind as descriptors name it. -/
def name : ProgramKind → String
  | .mapReduce => "map_reduce"
  | k => k.text

/-- A kind as a descriptor holds it. -/
def layout : Layout ProgramKind := .choice (all.map fun k => (k.name, k)) name

end ProgramKind

/-- Properties by name. -/
abbrev Properties := NameMap String

/-- Properties as a descriptor holds them. -/
def Properties.layout : Layout Properties := .table .text

/-- A program that an application declares. -/
structure ProgramSpec where
  name : String
  kind : ProgramKind
  description : String := ""
  mainClass : Option String := none
  properties : Properties := .empty
  deriving DecidableEq, Repr

namespace ProgramSpec

/-- A program as a descriptor holds it. -/
def layout : Layout ProgramSpec :=
  .record "struct ProgramSpecification"
    [.of "name" true .text (·.name) (fun v p => { p with name := v }),
     .of "type" true ProgramKind.layout (·.kind) (fun v p => { p with kind := v }),
     .of "description" false .text (·.description) (fun v p => { p with description := v }),
     .optional "main_class" .text (·.mainClass) (fun v p => { p with mainClass := v }),
     .of "properties" false Properties.layout (·.properties)
       (fun v p => { p with properties := v })]
    { name := "", kind := .mapReduce }

end ProgramSpec

end Deployment
