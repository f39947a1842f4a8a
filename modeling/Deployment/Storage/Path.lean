import Deployment.Json.Form

/-! # Paths

A path is a text of names with slashes between them. Slashes that follow each other count as one,
and a dot between slashes counts as nothing.

* **`Path.names`** — the names in a path.
* **`Path.join`** — a path below another.
* **`Path.parent?`**, **`Path.fileName?`**, **`Path.extension?`** — its parts.
* **`Path.withFileName`** — its last name replaced.
* **`Path.isPlainName`** — a text that can be one name.
* **`Path.besideName`** — the file that is about to take the place of another. -/

namespace Deployment.Path

/-- The path starts at the root. -/
def isAbsolute (p : String) : Bool := p.toList.head? = some '/'

/-- What stands between the slashes of a path. -/
def segments : List Char → List (List Char)
  | [] => [[]]
  | c :: s =>
    if c = '/' then [] :: segments s
    else match segments s with
      | [] => [[c]]
      | first :: rest => (c :: first) :: rest

/-- The names in a path. -/
def names (p : String) : List String :=
  ((segments p.toList).filter fun s => !s.isEmpty).map String.ofList

/-- The path `rel` below the path `base`, or `rel` alone if it starts at the root. -/
def join (base rel : String) : String :=
  if isAbsolute rel then rel
  else if base.isEmpty || base.toList.getLast? = some '/' then base ++ rel
  else base ++ "/" ++ rel

/-- A path, read backwards, without the slashes and the dots at its end. -/
def dropEnds : List Char → List Char
  | [] => []
  | c :: rest =>
    if c = '/' then if rest.isEmpty then [c] else dropEnds rest
    else if c = '.' && rest.head? = some '/' then dropEnds rest
    else c :: rest

/-- The last name of a path, as it stands there, read backwards. -/
def lastName (p : List Char) : List Char := (dropEnds p).takeWhile (· ≠ '/')

/-- The last name of a path, unless the path ends in a dot, in two dots or in nothing. -/
def fileName? (p : String) : Option String :=
  let name := lastName p.toList.reverse
  if name = [] || name = ['.'] || name = ['.', '.'] then none
  else some (String.ofList name.reverse)

/-- The path without its last name; the root and the empty path have none. -/
def parent? (p : String) : Option String :=
  let whole := dropEnds p.toList.reverse
  if whole = [] || whole = ['/'] then none
  else some (String.ofList (dropEnds (whole.dropWhile (· ≠ '/'))).reverse)

/-- The path with another last name. -/
def withFileName (p name : String) : String :=
  match fileName? p with
  | some _ => join ((parent? p).getD "") name
  | none => join p name

/-- What follows the last dot of the last name, unless nothing stands before that dot. -/
def extension? (p : String) : Option String := do
  let name := (← fileName? p).toList.reverse
  match name.dropWhile (· ≠ '.') with
  | _ :: _ :: _ => some (String.ofList (name.takeWhile (· ≠ '.')).reverse)
  | _ => none

/-- The text can stand as a name: it is neither empty nor a dot nor two, and holds no slash in
either direction. -/
def isPlainName (s : String) : Bool :=
  !s.isEmpty && s.toList.all (fun c => c ≠ '/' && c ≠ '\\') && s ≠ "." && s ≠ ".."

/-- The name of the file that is about to take the place of the one of the given name. -/
def besideName (name : String) : String := name ++ ".tmp"

/-- A path as a JSON string. -/
def form : Json.Form String := .judged "path string" .ok id

end Deployment.Path
