import Deployment.Verification.Verifier

/-! # The registry of verifiers

A registry keeps the verifiers that were asked for, one for each kind.

* **`VerifierRegistry`** — the verifiers by kind.
* **`VerifierRegistry.get`** — the verifier for a kind, which is kept from then on.
* **`VerifierRegistry.verify`** — check a part with the verifier for its kind. -/

namespace Deployment

/-- The verifiers that were asked for, by kind. -/
structure VerifierRegistry where
  verifiers : Keyed SpecKind Verifier := []
  deriving Repr

namespace VerifierRegistry

/-- No verifier was asked for. -/
def empty : VerifierRegistry := {}

/-- A verifier for the kind is kept. -/
def contains (r : VerifierRegistry) (kind : SpecKind) : Bool := Keyed.contains kind r.verifiers

/-- How many verifiers are kept. -/
def size (r : VerifierRegistry) : Nat := r.verifiers.length

/-- No verifier is kept. -/
def isEmpty (r : VerifierRegistry) : Bool := r.verifiers.isEmpty

/-- The kinds whose verifiers are kept. -/
def kinds (r : VerifierRegistry) : List SpecKind := SpecKind.all.filter r.contains

/-- The verifier for a kind; one that is not kept yet is made and kept. -/
def get (kind : SpecKind) : StateM VerifierRegistry Verifier := do
  match Keyed.find? kind (← MonadState.get).verifiers with
  | some v => return v
  | none =>
    let v := Verifier.ofKind kind
    modify fun r => ⟨Keyed.put kind v r.verifiers⟩
    return v

/-- Check a part with the verifier for its kind. -/
def verify (app : ApplicationId) (s : Subject) : StateM VerifierRegistry Verdict := do
  return (← get s.kind).verify app s

/-- The registry as a trace names it before any verifier was asked for. -/
def describeEmpty : String := "VerifierRegistry \x7b verifiers: \x7b\x7d \x7d"

end VerifierRegistry

end Deployment
