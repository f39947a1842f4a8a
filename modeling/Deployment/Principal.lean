import Deployment.Json.Form
import Deployment.Text.Blank

/-! # Principals

A principal names a person or a service: a primary name, perhaps an instance behind a slash, and
perhaps a realm behind an at sign.

* **`Principal`** — a principal, well formed or not.
* **`Principal.parts?`** — its parts, if it is well formed.
* **`Principal.shortName`** — its primary name. -/

namespace Deployment

/-- A principal as it was given. -/
structure Principal where
  name : String
  deriving DecidableEq, Repr

namespace Principal

/-- The parts of a well-formed principal. -/
structure Parts where
  primary : List Char
  instance? : Option (List Char)
  realm? : Option (List Char)
  deriving DecidableEq, Repr

/-- A character of a part: neither of the two separators, and no blank. -/
def isPartChar (c : Char) : Bool := c ≠ '/' && c ≠ '@' && !Text.isBlank c

/-- The realm behind an at sign, which ends the principal. -/
def realmOnly (s : List Char) : Option (List Char) :=
  if !s.isEmpty && s.all isPartChar then some s else none

/-- The parts of a principal; each part that is there has to hold a character. -/
def partsOf (s : List Char) : Option Parts :=
  let primary := s.takeWhile isPartChar
  if primary.isEmpty then none
  else match s.dropWhile isPartChar with
    | [] => some ⟨primary, none, none⟩
    | '@' :: realm => (realmOnly realm).map fun r => ⟨primary, none, some r⟩
    | '/' :: rest =>
      let inst := rest.takeWhile isPartChar
      if inst.isEmpty then none
      else match rest.dropWhile isPartChar with
        | [] => some ⟨primary, some inst, none⟩
        | '@' :: realm => (realmOnly realm).map fun r => ⟨primary, some inst, some r⟩
        | _ => none
    | _ => none

/-- The parts of the principal, if it is well formed. -/
def parts? (p : Principal) : Option Parts := partsOf p.name.toList

/-- The principal is well formed. -/
def isValid (p : Principal) : Bool := p.parts?.isSome

/-- What is wrong with a principal that is not well formed. -/
def invalidMessage (name : String) : String :=
  "invalid principal '" ++ name ++ "': expected primary[/instance][@REALM]"

/-- The name up to the first separator. -/
def shortName (p : Principal) : String :=
  String.ofList (p.name.toList.takeWhile fun c => c ≠ '/' && c ≠ '@')

/-- A principal as a JSON string. -/
def form : Json.Form Principal := Json.Form.text.imap (⟨·⟩) (·.name)

/-- The principal, or a stand-in where there is none. -/
def describe? : Option Principal → String
  | some p => p.name
  | none => "<none>"

end Principal

end Deployment
