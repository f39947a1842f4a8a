/-! # TOML documents

A TOML document is a table. What may be added to a table hangs on how it came into being: by a
header of its own, by a header of a table inside it, or by a key with dots.

* **`Toml.Value`** — a value.
* **`Toml.Item`**, **`Toml.Table`** — a document while it is put together.
* **`Table.assign`** — a key is given a value.
* **`Table.declare`**, **`Table.extend`** — the two kinds of headers. -/

namespace Deployment.Toml

/-- A value. Points in time and fractions are told apart, but not kept. -/
inductive Value where
  | text (s : String)
  | integer (n : Int)
  | bool (b : Bool)
  | fraction
  | moment
  | list (items : List Value)
  | table (members : List (String × Value))

/-- How a table came into being. -/
inductive Origin where
  /-- By a header of its own. -/
  | header
  /-- By the header of a table inside it. -/
  | inner
  /-- By a key with dots. -/
  | dotted
  deriving DecidableEq

/-- What stands under a key while a document is put together. -/
inductive Item where
  | value (v : Value)
  | table (origin : Origin) (members : List (String × Item))
  /-- The tables that headers with double brackets begin, the last one first. -/
  | tables (items : List (List (String × Item)))

/-- A table while it is put together. -/
structure Table where
  origin : Origin
  members : List (String × Item)

namespace Table

/-- What stands under a key. -/
def find? (key : String) : List (String × Item) → Option Item
  | [] => none
  | m :: rest => if m.1 = key then some m.2 else find? key rest

/-- Put something under a key. -/
def put (key : String) (item : Item) : List (String × Item) → List (String × Item)
  | [] => [(key, item)]
  | m :: rest => if m.1 = key then (key, item) :: rest else m :: put key item rest

/-- Change the table that a path of keys leads to. Tables on the way come into being as `origin`
says; with keys in a header, the last of several tables under one key is meant. -/
def within (origin : Origin) (change : Table → Option Table) :
    List String → Table → Option Table
  | [], t => change t
  | key :: path, t => do
    match find? key t.members with
    | none =>
      let new ← within origin change path ⟨origin, []⟩
      return { t with members := put key (.table new.origin new.members) t.members }
    | some (.value _) => none
    | some (.table old members) =>
      if origin = .dotted && old = .header then none
      else
        let new ← within origin change path ⟨old, members⟩
        return { t with members := put key (.table new.origin new.members) t.members }
    | some (.tables []) => none
    | some (.tables (last :: others)) =>
      let new ← within origin change path ⟨.header, last⟩
      return { t with members := put key (.tables (new.members :: others)) t.members }

/-- Give a key a value that has none. A path with dots has to lead to a table that came into
being in this way. -/
def assign (path : List String) (key : String) (v : Value) : Table → Option Table :=
  within .dotted (fun t =>
    if (t.origin = .dotted) = path.isEmpty then none
    else match find? key t.members with
      | some _ => none
      | none => some { t with members := t.members ++ [(key, .value v)] }) path

/-- Begin the table of a header, which no header began before. -/
def declare (path : List String) (key : String) : Table → Option Table :=
  within .inner (fun t =>
    match find? key t.members with
    | none => some { t with members := put key (.table .header []) t.members }
    | some (.table .inner members) =>
      some { t with members := put key (.table .header members) t.members }
    | some _ => none) path

/-- Begin another of the tables under a key. -/
def extend (path : List String) (key : String) : Table → Option Table :=
  within .inner (fun t =>
    match find? key t.members with
    | none => some { t with members := put key (.tables [[]]) t.members }
    | some (.tables items) => some { t with members := put key (.tables ([] :: items)) t.members }
    | some _ => none) path

/-- The table of a document without text. -/
def empty : Table := ⟨.header, []⟩

end Table

mutual

/-- What stands under a key, as a value. -/
def Item.toValue : Item → Value
  | .value v => v
  | .table _ members => .table (Item.membersToValues members)
  | .tables items => .list (Item.tablesToValues items).reverse

/-- The members of a table, as values. -/
def Item.membersToValues : List (String × Item) → List (String × Value)
  | [] => []
  | (k, i) :: rest => (k, Item.toValue i) :: Item.membersToValues rest

/-- Several tables, as values. -/
def Item.tablesToValues : List (List (String × Item)) → List Value
  | [] => []
  | t :: rest => .table (Item.membersToValues t) :: Item.tablesToValues rest

end

end Deployment.Toml
