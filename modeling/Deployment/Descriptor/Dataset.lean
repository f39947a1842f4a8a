import Deployment.Descriptor.Program

/-! # Datasets

* **`DatasetSpec`** — a dataset that an application declares.
* **`DatasetInstance`** — a dataset that exists. -/

namespace Deployment

/-- A dataset that an application declares. -/
structure DatasetSpec where
  name : String
  kind : String
  properties : Properties := .empty
  deriving DecidableEq, Repr

/-- A declared dataset as a descriptor holds it. -/
def DatasetSpec.layout : Layout DatasetSpec :=
  .record "struct DatasetCreationSpec"
    [.of "instance_name" true .text (·.name) (fun v d => { d with name := v }),
     .of "type_name" true .text (·.kind) (fun v d => { d with kind := v }),
     .of "properties" false Properties.layout (·.properties)
       (fun v d => { d with properties := v })]
    { name := "", kind := "" }

/-- A dataset that exists. -/
structure DatasetInstance where
  name : String
  kind : String
  properties : Properties := .empty
  deriving DecidableEq, Repr

/-- The dataset that a declaration creates. -/
def DatasetSpec.toInstance (d : DatasetSpec) : DatasetInstance := ⟨d.name, d.kind, d.properties⟩

/-- An existing dataset as a JSON object. -/
def DatasetInstance.form : Json.Form DatasetInstance :=
  .record "struct DatasetSpecification"
    [.of "name" true .text (·.name) (fun v d => { d with name := v }),
     .of "type" true .text (·.kind) (fun v d => { d with kind := v }),
     .of "properties" false Properties.layout.toForm (·.properties)
       (fun v d => { d with properties := v })]
    { name := "", kind := "" }

end Deployment
