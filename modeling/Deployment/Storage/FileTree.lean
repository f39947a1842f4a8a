import Deployment.Data.Keyed
import Deployment.Storage.Fault
import Deployment.Storage.Path
import Deployment.Text.Utf8

/-! # Files and directories

The files that the program works on, as a value. A file is known by a number that it keeps when
it is renamed, and that a writer may hold on to when the file is removed.

A file may refuse to be written: then it cannot be opened for that, but it can be read, renamed and
removed. That is all there is of permissions. Directories let everybody in, files and names have
room without end except on a device that is full, any number of files can be open, and no file has
two names: links to files and directories are left out.

* **`FileTree`** — directories and files, and what the files hold.
* **`FileTree.refuses`** — a file refuses to be written.
* **`FileTree.resolve`** — the place that a path leads to.
* **`Files α`** — a change of the tree that gives an `α` or a fault.
* **`Files.read`**, **`.create`**, **`.writeAt`**, **`.remove`**, **`.rename`**,
  **`.createDirectories`** — the changes. -/

namespace Deployment

/-- A place: the names that lead to it from the working directory. The root of all paths stands
under the name that no file can have, a slash. -/
abbrev Place := List String

/-- What stands at a place. -/
inductive Entry where
  | directory
  | file (number : Nat)
  /-- A link to a device that takes nothing. -/
  | fullDevice
  deriving DecidableEq, Repr

/-- What keeps files apart: every file that stands somewhere has a content, and no two places hold
the same file. A file that is still to be made does not refuse to be written. -/
structure FileTree.Sound (entries : Keyed Place Entry) (size : Nat) (guarded : List Nat) :
    Prop where
  bounded : ∀ p n, Keyed.find? p entries = some (.file n) → n < size
  alone : ∀ p q n, Keyed.find? p entries = some (.file n) →
    Keyed.find? q entries = some (.file n) → p = q
  made : ∀ n ∈ guarded, n < size

/-- Directories and files. The working directory and the root are always there. -/
structure FileTree where
  entries : Keyed Place Entry := []
  /-- What the files hold, by number. -/
  contents : Array (List UInt8) := #[]
  /-- The files that refuse to be written, by number. -/
  guarded : List Nat := []
  sound : FileTree.Sound entries contents.size guarded := by constructor <;> simp

namespace FileTree

/-- The tree without any file. -/
def empty : FileTree := {}

/-- The place of the root. -/
def root : Place := ["/"]

/-- What stands at a place. -/
def find? (t : FileTree) (p : Place) : Option Entry :=
  if p = [] || p = root then some .directory else Keyed.find? p t.entries

/-- What a file holds. -/
def content (t : FileTree) (number : Nat) : List UInt8 := t.contents[number]?.getD []

/-- A file refuses to be written. -/
def refuses (t : FileTree) (number : Nat) : Bool := t.guarded.contains number

/-! ## Trees from trees -/

/-- Something that is no file put at a place. -/
def put (p : Place) (e : Entry) (t : FileTree) (h : ∀ n, e ≠ .file n) : FileTree where
  entries := Keyed.put p e t.entries
  contents := t.contents
  guarded := t.guarded
  sound := by
    refine ⟨?_, ?_, t.sound.made⟩
    · intro q n hq
      rw [Keyed.find?_put] at hq
      split at hq
      · exact absurd (Option.some.inj hq) (h n)
      · exact t.sound.bounded q n hq
    · intro q r n hq hr
      rw [Keyed.find?_put] at hq hr
      split at hq
      · exact absurd (Option.some.inj hq) (h n)
      · split at hr
        · exact absurd (Option.some.inj hr) (h n)
        · exact t.sound.alone q r n hq hr

/-- A new file put at a place; it holds nothing. -/
def putFile (p : Place) (t : FileTree) : FileTree where
  entries := Keyed.put p (.file t.contents.size) t.entries
  contents := t.contents.push []
  guarded := t.guarded
  sound := by
    -- The new file has a number that no file has had before.
    have old : ∀ q n, Keyed.find? q t.entries = some (.file n) → n ≠ t.contents.size :=
      fun q n hq => Nat.ne_of_lt (t.sound.bounded q n hq)
    rw [Array.size_push]
    refine ⟨?_, ?_, fun n hn => Nat.lt_succ_of_lt (t.sound.made n hn)⟩
    · intro q n hq
      rw [Keyed.find?_put] at hq
      split at hq
      · cases hq; exact Nat.lt_succ_self _
      · exact Nat.lt_succ_of_lt (t.sound.bounded q n hq)
    · intro q r n hq hr
      rw [Keyed.find?_put] at hq hr
      split at hq <;> split at hr
      next hpq hpr => exact hpq.symm.trans hpr
      next => cases hq; exact absurd rfl (old r _ hr)
      next => cases hr; exact absurd rfl (old q _ hq)
      next => exact t.sound.alone q r n hq hr

/-- The file of a number with another content. -/
def setContent (n : Nat) (bytes : List UInt8) (t : FileTree) : FileTree where
  entries := t.entries
  contents := t.contents.setIfInBounds n bytes
  guarded := t.guarded
  sound := by rw [Array.size_setIfInBounds]; exact t.sound

/-- Nothing at the places that `keep` refuses. -/
def restrict (keep : Place → Bool) (t : FileTree) : FileTree where
  entries := t.entries.filter fun e => keep e.1
  contents := t.contents
  guarded := t.guarded
  sound := by
    have old : ∀ q n, Keyed.find? q (t.entries.filter fun e => keep e.1) = some (.file n) →
        Keyed.find? q t.entries = some (.file n) := fun q n hq => by
      rw [Keyed.find?_filter_key] at hq
      split at hq
      · exact hq
      · cases hq
    exact ⟨fun q n hq => t.sound.bounded q n (old q n hq),
      fun q r n hq hr => t.sound.alone q r n (old q n hq) (old r n hr), t.sound.made⟩

/-- What stands at one place put at another, in the place of what was there. -/
def move (source target : Place) (t : FileTree) : FileTree :=
  match h : Keyed.find? source t.entries with
  | none => t
  | some e =>
    { entries := Keyed.put target e (Keyed.erase source t.entries)
      contents := t.contents
      guarded := t.guarded
      sound := by
        -- A file is found at the target if it lay at the source, and elsewhere if it lay there
        -- already.
        have old : ∀ q n, Keyed.find? q (Keyed.put target e (Keyed.erase source t.entries)) =
            some (.file n) → (target = q ∧ Keyed.find? source t.entries = some (.file n)) ∨
              source ≠ q ∧ Keyed.find? q t.entries = some (.file n) := fun q n hq => by
          rw [Keyed.find?_put, Keyed.find?_erase] at hq
          split at hq
          next hq' => exact .inl ⟨hq', h.trans hq⟩
          next => split at hq <;> simp_all
        refine ⟨?_, ?_, t.sound.made⟩
        · intro q n hq
          rcases old q n hq with ⟨-, hs⟩ | ⟨-, hq⟩
          · exact t.sound.bounded source n hs
          · exact t.sound.bounded q n hq
        · intro q r n hq hr
          rcases old q n hq with ⟨htq, hs⟩ | ⟨hsq, hs⟩ <;>
            rcases old r n hr with ⟨htr, hs'⟩ | ⟨hsr, hs'⟩
          · exact htq.symm.trans htr
          · exact absurd (t.sound.alone source r n hs hs') hsr
          · exact absurd (t.sound.alone source q n hs' hs) hsq
          · exact t.sound.alone q r n hs hs' }

/-- The file that stands at a place refuses to be written from now on. -/
def guard (p : Place) (t : FileTree) : FileTree :=
  match h : Keyed.find? p t.entries with
  | some (.file n) =>
    { entries := t.entries
      contents := t.contents
      guarded := n :: t.guarded
      sound := by
        refine ⟨t.sound.bounded, t.sound.alone, ?_⟩
        rintro m (_ | ⟨_, hm⟩)
        · exact t.sound.bounded p n h
        · exact t.sound.made m hm }
  | _ => t

/-! ### What stands where afterwards -/

/-- The place without a name is the root, which is a directory. -/
@[simp] theorem find?_nil (t : FileTree) : t.find? [] = some .directory := rfl

/-- The root is a directory. -/
@[simp] theorem find?_root (t : FileTree) : t.find? root = some .directory := rfl

/-- At every other place the entries decide. -/
theorem find?_eq (t : FileTree) {p : Place} (h : p ≠ []) (h' : p ≠ root) :
    t.find? p = Keyed.find? p t.entries := by
  simp [find?, h, h']

/-- What is no directory stands among the entries. -/
theorem find?_of_ne_directory {t : FileTree} {p : Place} (h : t.find? p ≠ some .directory) :
    p ≠ [] ∧ p ≠ root ∧ t.find? p = Keyed.find? p t.entries := by
  have h0 : p ≠ [] := by rintro rfl; exact h rfl
  have h1 : p ≠ root := by rintro rfl; exact h rfl
  exact ⟨h0, h1, t.find?_eq h0 h1⟩

/-- A file that stands somewhere has a content. -/
theorem lt_size_of_find? {t : FileTree} {p : Place} {n : Nat} (h : t.find? p = some (.file n)) :
    n < t.contents.size := by
  obtain ⟨-, -, he⟩ := find?_of_ne_directory (t := t) (p := p) (by simp [h])
  exact t.sound.bounded p n (he ▸ h)

/-- A file stands at one place. -/
theorem place_unique {t : FileTree} {p q : Place} {n : Nat} (hp : t.find? p = some (.file n))
    (hq : t.find? q = some (.file n)) : p = q := by
  obtain ⟨-, -, ep⟩ := find?_of_ne_directory (t := t) (p := p) (by simp [hp])
  obtain ⟨-, -, eq⟩ := find?_of_ne_directory (t := t) (p := q) (by simp [hq])
  exact t.sound.alone p q n (ep ▸ hp) (eq ▸ hq)

/-- What is put at a free place is found there, and everything else as before. -/
@[simp] theorem find?_put {t : FileTree} {p : Place} {e : Entry} {h : ∀ n, e ≠ .file n}
    (hp : t.find? p = none) (q : Place) :
    (t.put p e h).find? q = if p = q then some e else t.find? q := by
  obtain ⟨h0, h1, -⟩ := find?_of_ne_directory (t := t) (p := p) (by simp [hp])
  simp only [find?, put, Keyed.find?_put]
  grind

/-- A file that is put at a free place is found there under the next number, and everything else as
before. -/
@[simp] theorem find?_putFile {t : FileTree} {p : Place} (hp : t.find? p = none) (q : Place) :
    (t.putFile p).find? q = if p = q then some (.file t.contents.size) else t.find? q := by
  obtain ⟨h0, h1, -⟩ := find?_of_ne_directory (t := t) (p := p) (by simp [hp])
  simp only [find?, putFile, Keyed.find?_put]
  grind

/-- What stands in a file has no part in what is found where. -/
@[simp] theorem find?_setContent (t : FileTree) (n : Nat) (bytes : List UInt8) (q : Place) :
    (t.setContent n bytes).find? q = t.find? q := rfl

/-- A place that is no directory can be taken away, and nothing else goes with it. -/
theorem find?_restrict_ne {t : FileTree} {p : Place} (hp : t.find? p ≠ some .directory)
    (q : Place) :
    (t.restrict (· ≠ p)).find? q = if p = q then none else t.find? q := by
  obtain ⟨h0, h1, -⟩ := find?_of_ne_directory hp
  have h := Keyed.find?_filter_key (fun key => decide (key ≠ p)) q t.entries
  simp only [find?, restrict, h]
  grind

/-- What is moved is found at its target and no longer at its source; what the target held before is
gone, and everything else is as before. -/
theorem find?_move {t : FileTree} {source target : Place} {e : Entry}
    (hs : t.find? source = some e) (he : e ≠ .directory)
    (ht : t.find? target ≠ some .directory) (q : Place) :
    (t.move source target).find? q =
      if target = q then some e else if source = q then none else t.find? q := by
  obtain ⟨s0, s1, hs'⟩ := find?_of_ne_directory (t := t) (p := source) (by simp [hs, he])
  obtain ⟨t0, t1, -⟩ := find?_of_ne_directory ht
  rw [hs] at hs'
  have hm : (t.move source target).entries =
      Keyed.put target e (Keyed.erase source t.entries) := by
    unfold move
    split <;> simp_all
  simp only [find?, hm, Keyed.find?_put, Keyed.find?_erase]
  grind

/-- A file that is made takes what is written to it. -/
@[simp] theorem refuses_size (t : FileTree) : t.refuses t.contents.size = false := by
  rw [refuses, List.contains_eq_any_beq, List.any_eq_false]
  intro n hn
  simpa using (Nat.ne_of_lt (t.sound.made n hn)).symm

/-- Nothing is written with what is put at a place. -/
@[simp] theorem content_put (t : FileTree) (p : Place) (e : Entry) (h : ∀ n, e ≠ .file n)
    (n : Nat) : (t.put p e h).content n = t.content n := rfl

/-- A file that is put at a place is empty, as a number is that no file has. -/
@[simp] theorem content_putFile (t : FileTree) (p : Place) (n : Nat) :
    (t.putFile p).content n = t.content n := by
  simp only [content, putFile, Array.getElem?_push]
  split <;> simp_all

/-- What is written to a file stands in it, if there is one of the number; all others are
as before. -/
@[simp] theorem content_setContent (t : FileTree) (n m : Nat) (bytes : List UInt8) :
    (t.setContent n bytes).content m =
      if n = m ∧ n < t.contents.size then bytes else t.content m := by
  simp only [content, setContent, Array.getElem?_setIfInBounds]
  grind

/-- Places that are taken away leave what stood in their files. -/
@[simp] theorem content_restrict (t : FileTree) (keep : Place → Bool) (n : Nat) :
    (t.restrict keep).content n = t.content n := rfl

/-- A move writes nothing. -/
@[simp] theorem content_move (t : FileTree) (source target : Place) (n : Nat) :
    (t.move source target).content n = t.content n := by
  unfold move
  split <;> rfl

/-! ## Where paths lead -/

/-- The place of the directory that holds a place. -/
def above (p : Place) : Place := if p = root then root else p.dropLast

/-- The longest name in bytes. -/
def maxName : Nat := 255

/-- The longest path in bytes. -/
def maxPath : Nat := 4095

/-- The directory that a name leads to from a directory. -/
def enter (t : FileTree) (p : Place) (name : String) : Except StorageFault Place :=
  if name = "." then .ok p
  else if name = ".." then .ok (above p)
  else if maxName < name.utf8ByteSize then .error .nameTooLong
  else match t.find? (p ++ [name]) with
    | some .directory => .ok (p ++ [name])
    | some _ => .error .notADirectory
    | none => .error .notFound

/-- Where a path leads. -/
structure Target where
  place : Place
  /-- The path ends without a name, and so the place is a directory that is there. -/
  nameless : Bool
  /-- The path ends in a slash, and so only a directory will do. -/
  slash : Bool
  deriving DecidableEq, Repr

/-- The place that a path leads to; all directories on the way have to be there. -/
def resolve (t : FileTree) (path : String) : Except StorageFault Target := do
  if path.toList.contains '\x00' then throw .zeroCharacter
  if path.isEmpty then throw .notFound
  if maxPath < path.utf8ByteSize then throw .nameTooLong
  let start := if Path.isAbsolute path then root else []
  match (Path.names path).getLast? with
  -- A path without names leads to the root, or to where it starts.
  | none => return ⟨start, true, true⟩
  | some last =>
    let p ← (Path.names path).dropLast.foldlM t.enter start
    if last = "." then return ⟨p, true, true⟩
    else if last = ".." then return ⟨above p, true, true⟩
    else if maxName < last.utf8ByteSize then throw .nameTooLong
    -- Whether the last name is there is left to the operation.
    else return ⟨p ++ [last], false, path.toList.getLast? = some '/'⟩

/-- What stands where a path leads; nothing, if there is nothing of that name. -/
def look (t : FileTree) (path : String) : Except StorageFault (Target × Option Entry) := do
  let target ← t.resolve path
  match t.find? target.place with
  | none => return (target, none)
  | some .directory => return (target, some .directory)
  | some e => if target.slash then throw .notADirectory else return (target, some e)

/-- The path leads to a directory. -/
def isDirectory (t : FileTree) (path : String) : Bool :=
  match t.look path with
  | .ok (_, some .directory) => true
  | _ => false

/-- What the file holds that the path leads to. -/
def read (t : FileTree) (path : String) : Except StorageFault (List UInt8) := do
  match (← t.look path).2 with
  | none => throw .notFound
  | some .directory => throw .isADirectory
  | some .fullDevice => throw .endless
  | some (.file n) => return t.content n

/-- The text of the file that the path leads to. -/
def readText (t : FileTree) (path : String) : Except StorageFault String := do
  match Utf8.decode? (← t.read path) with
  | some s => return s
  | none => throw .notText

/-- The names in the directory that the path leads to, in order. -/
def list (t : FileTree) (path : String) : Except StorageFault (List String) := do
  let (target, found) ← t.look path
  match found with
  | none => throw .notFound
  | some .directory =>
    let children := t.entries.filterMap fun e =>
      if e.1.dropLast = target.place && e.1 ≠ [] then e.1.getLast? else none
    return children.mergeSort (fun a b => a ≤ b)
  | some _ => throw .notADirectory

end FileTree

/-- A change of files that gives an `α` or a fault. What was changed before a fault stays so. -/
abbrev Files (α : Type) := EStateM StorageFault FileTree α

/-- Where bytes may be written to. -/
inductive Sink where
  | file (number : Nat)
  | fullDevice
  deriving DecidableEq, Repr

namespace Files

/-- A look at the tree. -/
def ask {α : Type} (f : FileTree → Except StorageFault α) : Files α := fun t =>
  match f t with
  | .ok a => .ok a t
  | .error e => .error e t

/-- What the file holds that the path leads to. -/
def read (path : String) : Files (List UInt8) := ask (·.read path)

/-- Open a file to be written from its start: a new one, or one that loses what it held, unless it
refuses. -/
def create (path : String) : Files Sink := do
  let target ← ask (·.resolve path)
  if target.slash then throw .isADirectory
  match (← get).find? target.place with
  | some .directory => throw .isADirectory
  | some .fullDevice => return .fullDevice
  | some (.file n) =>
    -- The file is there, and may refuse to be opened.
    if (← get).refuses n then throw .refused
    modify (FileTree.setContent n [])
    return .file n
  | none =>
    let n := (← get).contents.size
    modify (FileTree.putFile target.place)
    return .file n

/-- Bytes put over those from a position on; zeros fill what lies before it. -/
def splice (old : List UInt8) (offset : Nat) (bytes : List UInt8) : List UInt8 :=
  old.take offset ++ List.replicate (offset - old.length) 0 ++ bytes ++
    old.drop (offset + bytes.length)

/-- Bytes put at the end are appended. -/
@[simp] theorem splice_length (old bytes : List UInt8) :
    splice old old.length bytes = old ++ bytes := by
  simp [splice]

/-- Write bytes from a position on. -/
def writeAt (sink : Sink) (offset : Nat) (bytes : List UInt8) : Files Unit :=
  match sink with
  | .file n => modify fun t => t.setContent n (splice (t.content n) offset bytes)
  | .fullDevice => if bytes.isEmpty then pure () else throw .full

/-- Write a whole file. -/
def write (path : String) (bytes : List UInt8) : Files Unit := do
  writeAt (← create path) 0 bytes

/-- Make a directory. -/
def createDirectory (path : String) : Files Unit := do
  let target ← ask (·.resolve path)
  match (← get).find? target.place with
  | some _ => throw .alreadyExists
  | none => modify fun t => t.put target.place .directory (by simp)

/-- Make a directory that may be there already. -/
def ensureDirectory (path : String) : Files Unit := fun t =>
  match createDirectory path t with
  | .ok () t' => .ok () t'
  | .error e t' => if t'.isDirectory path then .ok () t' else .error e t'

/-- Make a directory and all those above it, with at most so many steps up. -/
def createDirectoriesUp : Nat → String → Files Unit
  | 0, path => if path.isEmpty then pure () else ensureDirectory path
  | steps + 1, path =>
    if path.isEmpty then pure ()
    else fun t =>
      match ensureDirectory path t with
      | .error .notFound t' => (match Path.parent? path with
        | some p => (do createDirectoriesUp steps p; ensureDirectory path) t'
        | none => .error .notFound t')
      | r => r

/-- Make a directory and all those above it that are not there. -/
def createDirectories (path : String) : Files Unit := createDirectoriesUp path.length path

/-- Remove a file. -/
def remove (path : String) : Files Unit := do
  let (target, found) ← ask (·.look path)
  match found with
  | none => throw .notFound
  | some .directory => throw .isADirectory
  | some _ => modify (FileTree.restrict (· ≠ target.place))

/-- Give a file another name; what had that name is gone, unless it is a directory. -/
def rename (source target : String) : Files Unit := do
  let src ← ask (·.resolve source)
  let dst ← ask (·.resolve target)
  if src.nameless || dst.nameless then throw .busy
  match (← get).find? src.place with
  | none => throw .notFound
  | some .directory => throw .isADirectory
  | some _ =>
    if src.slash || dst.slash then throw .notADirectory
    if (← get).find? dst.place = some .directory then throw .isADirectory
    if src.place = dst.place then return ()
    modify (FileTree.move src.place dst.place)

/-! ## Changes from outside -/

/-- Write a whole file in a directory that is made for it. -/
def store (path : String) (bytes : List UInt8) : Files Unit := do
  createDirectories ((Path.parent? path).getD "")
  write path bytes

/-- Put a link to a device that takes nothing in a directory that is made for it. -/
def linkFullDevice (path : String) : Files Unit := do
  createDirectories ((Path.parent? path).getD "")
  let target ← ask (·.resolve path)
  match (← get).find? target.place with
  | some _ => throw .alreadyExists
  | none => modify fun t => t.put target.place .fullDevice (by simp)

/-- Have the file that the path leads to refuse to be written. -/
def guard (path : String) : Files Unit := do
  let target ← ask (·.resolve path)
  modify (FileTree.guard target.place)

/-- Remove whatever is at the path, with all that is below it. -/
def removeAll (path : String) : Files Unit := do
  let (target, found) ← ask (·.look path)
  match found with
  | none => throw .notFound
  | some _ => modify (FileTree.restrict fun p => !target.place.isPrefixOf p)

end Files

end Deployment
