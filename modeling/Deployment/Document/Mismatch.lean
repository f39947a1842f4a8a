import Deployment.Decimal.Shortest
import Deployment.Text.Quoted

/-! # Mismatches between a document and what is read from it

Why a part of a document is not a value of the type that is wanted there.

* **`Found`** — what stood in the document.
* **`Mismatch`** — the reasons for a refusal.
* **`Wording`** — the two words in which the document formats differ.
* **`Mismatch.message`** — the text of a reason. -/

namespace Deployment

/-- What stands at a place of a document where something else is wanted. -/
inductive Found where
  | null
  | bool (b : Bool)
  | integer (n : Int)
  | wide (n : Int) (width : String)
  | float (f : Float)
  | text (s : String)
  | list
  | table
  | tagged
  | bareVariant

/-- Why a part of a document is refused. -/
inductive Mismatch where
  | kind (found : Found) (expected : String)
  | value (found : Found) (expected : String)
  | length (n : Nat) (expected : String)
  | missingField (name : String)
  | duplicateField (name : String)
  | unknownVariant (name : String) (known : List String)
  | other (message : String)

/-- How a document format words the absence of a value and lays out fractions. -/
structure Wording where
  null : String
  float : Decimal.Style

/-- What was found, in words. -/
def Found.describe (w : Wording) : Found → String
  | .null => w.null
  | .bool b => "boolean `" ++ (if b then "true" else "false") ++ "`"
  | .integer n => "integer `" ++ toString n ++ "`"
  | .wide n width => "integer `" ++ toString n ++ "` as " ++ width
  | .float f => "floating point `" ++ w.float.float f ++ "`"
  | .text s => "string " ++ Text.quoted s
  | .list => "sequence"
  | .table => "map"
  | .tagged => "enum"
  | .bareVariant => "unit variant"

/-- A name between grave accents. -/
def ticked (s : String) : String := "`" ++ s ++ "`"

/-- A choice of names. -/
def oneOf : List String → String
  | [] => "there are no variants"
  | [a] => "expected " ++ ticked a
  | [a, b] => "expected " ++ ticked a ++ " or " ++ ticked b
  | names => "expected one of " ++ ", ".intercalate (names.map ticked)

/-- The text of a refusal. -/
def Mismatch.message (w : Wording) : Mismatch → String
  | .kind found expected => "invalid type: " ++ found.describe w ++ ", expected " ++ expected
  | .value found expected => "invalid value: " ++ found.describe w ++ ", expected " ++ expected
  | .length n expected => "invalid length " ++ toString n ++ ", expected " ++ expected
  | .missingField name => "missing field " ++ ticked name
  | .duplicateField name => "duplicate field " ++ ticked name
  | .unknownVariant name known => "unknown variant " ++ ticked name ++ ", " ++ oneOf known
  | .other message => message

/-- A count of elements, in words. -/
def elements (n : Nat) : String :=
  if n = 1 then "1 element" else toString n ++ " elements"

end Deployment
