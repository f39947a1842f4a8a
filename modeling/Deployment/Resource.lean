import Deployment.Account
import Deployment.Principal
import Deployment.Ulid

/-! # Uploaded resources

* **`ResourceInfo`** — what is told of an archive before it is uploaded.
* **`ResourceId`** — the identity of one upload. -/

namespace Deployment

/-- What is told of an archive before it is uploaded. -/
structure ResourceInfo where
  account : Account
  fileName : String
  /-- The size in bytes, as it is declared. -/
  size : Nat := 0
  /-- The time of the last change, in milliseconds. -/
  modified : Int := 0
  /-- The owner that is asked for. -/
  owner : Option Principal := none
  deriving DecidableEq, Repr

namespace ResourceInfo

/-- The name of a file without what follows its last dot. -/
def stem (name : String) : String :=
  match name.toList.reverse.dropWhile (· ≠ '.') with
  | [] => name
  | _ :: rest => String.ofList rest.reverse

/-- The application as the file is named for it. -/
def application (i : ResourceInfo) : String := stem i.fileName

/-- The information as a JSON object. -/
def form : Json.Form ResourceInfo :=
  .record "struct ResourceInfo"
    [.of "account_id" true Account.form (·.account) (fun v i => { i with account := v }),
     .of "filename" true .text (·.fileName) (fun v i => { i with fileName := v }),
     .of "size" true (.natural "u64" (Nat.pow 2 64 - 1)) (·.size) (fun v i => { i with size := v }),
     .of "modtime" true (.integer "i64") (·.modified) (fun v i => { i with modified := v }),
     .optional "owner_principal" Principal.form (·.owner) (fun v i => { i with owner := v })]
    { account := ⟨""⟩, fileName := "" }

end ResourceInfo

/-- The identity of one upload. -/
structure ResourceId where
  account : Account
  application : String
  upload : Ulid
  version : Nat
  deriving DecidableEq, Repr

namespace ResourceId

/-- An upload as messages name it. -/
def text (r : ResourceId) : String :=
  r.account.name ++ "/" ++ r.application ++ "/" ++ r.upload.text ++ "@" ++ toString r.version

/-- An identity as a JSON object. -/
def form : Json.Form ResourceId :=
  .record "struct ResourceIdentifier"
    [.of "account_id" true Account.form (·.account) (fun v r => { r with account := v }),
     .of "application_id" true .text (·.application) (fun v r => { r with application := v }),
     .of "resource_id" true Ulid.form (·.upload) (fun v r => { r with upload := v }),
     .of "version" true (.natural "u32" (Nat.pow 2 32 - 1)) (·.version)
       (fun v r => { r with version := v })]
    ⟨⟨""⟩, "", ⟨0⟩, 1⟩

end ResourceId

end Deployment
