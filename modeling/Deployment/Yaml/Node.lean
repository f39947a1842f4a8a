import Deployment.Yaml.Tokenizer

/-! # The structure of a YAML document

The tokens of a text become a tree of nodes. A node may be named by an anchor and referred to by
an alias, which may stand inside the node itself; so aliases stay in the tree, and the document
keeps its anchored nodes on the side.

* **`Yaml.Node`** — a node of the tree.
* **`Yaml.Document`** — the root, the anchored nodes and the number of nodes.
* **`Yaml.Document.parse`** — the document of a text. -/

namespace Deployment.Yaml

/-- A node: a scalar, a sequence, a mapping, or a reference to an anchored node. -/
inductive Node where
  | scalar (mark : Mark) (tag : Option String) (plain : Bool) (value : String)
  | sequence (mark : Mark) (tag : Option String) (items : List Node)
  | mapping (mark : Mark) (tag : Option String) (entries : List (Node × Node))
  | alias (mark : Mark) (target : Nat)

/-- There is a node, which refers to another. -/
instance : Inhabited Node := ⟨.alias .start 0⟩

/-- Where a node starts. -/
def Node.mark : Node → Mark
  | .scalar m .. => m
  | .sequence m .. => m
  | .mapping m .. => m
  | .alias m _ => m

/-- A node under the number of its anchor; of two nodes with one number the later counts. -/
structure Anchored where
  number : Nat
  order : Nat
  node : Node

/-- A document. -/
structure Document where
  /-- The root; that of an empty stream is a scalar without letters. -/
  root : Node
  anchored : List Anchored
  /-- The number of starts and ends of nodes. -/
  events : Nat

/-- The node that an alias refers to. -/
def Document.target? (d : Document) (number : Nat) : Option Node :=
  (d.anchored.foldl (fun (best : Option Anchored) a =>
    if a.number ≠ number then best
    else match best with
      | some b => if b.order < a.order then some a else best
      | none => some a) none).map (·.node)

/-- What is known while the tree is built. -/
structure Builder where
  /-- The tokens that are left. -/
  rest : List Token
  /-- The tag handles and what they stand for. -/
  handles : List (String × String) := []
  /-- The numbers of the anchors so far, by name. -/
  names : List (String × Nat) := []
  anchored : List Anchored := []
  events : Nat := 0

namespace Builder

/-- A step of building the tree. -/
abbrev Build := StateT Builder (Except SyntaxFault)

/-- The next token; past the last one the stream has ended. -/
def peek : Build Token := do
  return (← get).rest.headD ⟨.streamEnd, .start, .start⟩

/-- Pass over a token. -/
def skip : Build Unit := modify fun b => { b with rest := b.rest.drop 1 }

/-- Refuse at a token. -/
def fail {α : Type} (t : Token) (reason : String) : Build α := throw ⟨reason, t.start⟩

/-- Count starts and ends of nodes. -/
def count (n : Nat) : Build Unit := modify fun b => { b with events := b.events + n }

/-- A node that was left out. -/
def nothing (m : Mark) : Build Node := do
  count 1
  return .scalar m none true ""

/-- What a tag stands for. -/
def resolveTag (t : Token) (handle suffix : String) : Build String := do
  if handle.isEmpty then return suffix
  else
    let handles := (← get).handles ++ [("!", "!"), ("!!", "tag:yaml.org,2002:")]
    match handles.find? (·.1 = handle) with
    | some (_, start) => return start ++ suffix
    | none => fail t "found undefined tag handle"

/-- An anchor name gets the number of names so far. -/
def nameAnchor (name : String) : Build Anchored := do
  let b ← get
  let number := b.names.length
  let names := (name, number) :: b.names.filter (·.1 ≠ name)
  set { b with names := names }
  return ⟨number, b.events, .alias .start number⟩

/-- The anchor and the tag in front of a node, in either order, and where they start. -/
def properties : Build (Option String × Option String × Mark) := do
  let anchor? : Build (Option String) := do
    match (← peek).kind with
    | .anchor name => do skip; return some name
    | _ => return none
  let tag? : Build (Option String) := do
    let t ← peek
    match t.kind with
    | .tag handle suffix => do skip; return some (← resolveTag t handle suffix)
    | _ => return none
  let start := (← peek).start
  -- Anchor and tag may come in either order.
  match ← anchor? with
  | some a => return (some a, ← tag?, start)
  | none =>
    let tag ← tag?
    return (← anchor?, tag, start)

/-- Add an item to the front of a list that is built. -/
def cons {α : Type} (a : α) (rest : Build (List α)) : Build (List α) := do
  return a :: (← rest)

mutual

/-- A node. In block context block collections may start; `indentless` admits a sequence at the
column of the mapping around it. -/
def node (block indentless : Bool) : Nat → Build Node
  | 0 => do fail (← peek) "did not find expected node content"
  | fuel + 1 => do
    let t ← peek
    match t.kind with
    | .alias name =>
      match (← get).names.find? (·.1 = name) with
      | some (_, number) => do
        skip
        count 1
        return .alias t.start number
      | none => fail t "unknown anchor"
    | _ =>
      let (anchor, tag, start) ← properties
      -- The anchor is known from here on, so that the node can be referred to from inside.
      let place ← (match anchor with
        | some name => some <$> nameAnchor name
        | none => pure none : Build (Option Anchored))
      let t ← peek
      let n ← (match t.kind with
        | .scalar style value => do
          skip
          count 1
          let tag := if tag = some "!" then none else tag
          return .scalar start tag (style = .plain) value
        | .flowSequenceStart => do
          skip
          count 2
          return .sequence start tag (← flowItems true fuel)
        | .flowMappingStart => do
          skip
          count 2
          return .mapping start tag (← flowEntries true fuel)
        | .blockSequenceStart =>
          if block then do
            skip
            count 2
            return .sequence start tag (← blockItems fuel)
          else content t anchor tag start
        | .blockMappingStart =>
          if block then do
            skip
            count 2
            return .mapping start tag (← blockEntries fuel)
          else content t anchor tag start
        | .blockEntry =>
          if indentless then do
            count 2
            return .sequence start tag (← indentlessItems fuel)
          else content t anchor tag start
        | _ => content t anchor tag start : Build Node)
      -- Now that the node is complete it can stand for its aliases.
      if let some p := place then
        modify fun b => { b with anchored := { p with node := n } :: b.anchored }
      return n

/-- No content: allowed behind an anchor or a tag. -/
def content (t : Token) (anchor tag : Option String) (start : Mark) : Build Node := do
  if anchor.isSome || tag.isSome then
    count 1
    return .scalar start tag true ""
  else fail t "did not find expected node content"

/-- The items of a block sequence. -/
def blockItems : Nat → Build (List Node)
  | 0 => do fail (← peek) "did not find expected '-' indicator"
  | fuel + 1 => do
    let t ← peek
    match t.kind with
    | .blockEntry => do
      skip
      let n ← (match (← peek).kind with
        | .blockEntry | .blockEnd => nothing t.stop
        | _ => node true false fuel : Build Node)
      cons n (blockItems fuel)
    | .blockEnd => do
      skip
      return []
    | _ => fail t "did not find expected '-' indicator"

/-- The items of a sequence at the column of the mapping around it. -/
def indentlessItems : Nat → Build (List Node)
  | 0 => do fail (← peek) "did not find expected '-' indicator"
  | fuel + 1 => do
    let t ← peek
    match t.kind with
    | .blockEntry => do
      skip
      let n ← (match (← peek).kind with
        | .blockEntry | .key | .value | .blockEnd => nothing t.stop
        | _ => node true false fuel : Build Node)
      cons n (indentlessItems fuel)
    | _ => return []

/-- The entries of a block mapping. -/
def blockEntries : Nat → Build (List (Node × Node))
  | 0 => do fail (← peek) "did not find expected key"
  | fuel + 1 => do
    let t ← peek
    match t.kind with
    | .key => do
      skip
      let k ← (match (← peek).kind with
        -- A key without anything behind it stands for the null scalar.
        | .key | .value | .blockEnd => nothing t.stop
        | _ => node true true fuel : Build Node)
      let v ← blockValue fuel
      cons (k, v) (blockEntries fuel)
    | .blockEnd => do
      skip
      return []
    | _ => fail t "did not find expected key"

/-- The value of a key of a block mapping. -/
def blockValue : Nat → Build Node
  | 0 => do fail (← peek) "did not find expected node content"
  | fuel + 1 => do
    let t ← peek
    match t.kind with
    | .value => do
      skip
      match (← peek).kind with
      | .key | .value | .blockEnd => nothing t.stop
      | _ => node true true fuel
    | _ => nothing t.start

/-- The items of a flow sequence; an item may be a single pair. -/
def flowItems (first : Bool) : Nat → Build (List Node)
  | 0 => do fail (← peek) "did not find expected ',' or ']'"
  | fuel + 1 => do
    if (← peek).kind = .flowSequenceEnd then do
      skip
      return []
    else
      if !first then
        let t ← peek
        if t.kind = .flowEntry then skip
        else fail t "did not find expected ',' or ']'"
      let t ← peek
      match t.kind with
      -- A pair inside a sequence is a mapping with one entry.
      | .key => do
        skip
        count 2
        let k ← (match (← peek).kind with
          | .value | .flowEntry | .flowSequenceEnd => do
            let m := (← peek).stop
            skip
            nothing m
          | _ => node false false fuel : Build Node)
        let v ← (do
          let t ← peek
          if t.kind = .value then
            skip
            match (← peek).kind with
            | .flowEntry | .flowSequenceEnd => do nothing (← peek).start
            | _ => node false false fuel
          else nothing t.start : Build Node)
        cons (.mapping t.start none [(k, v)]) (flowItems false fuel)
      | .flowSequenceEnd => do
        skip
        return []
      | _ => do
        let n ← node false false fuel
        cons n (flowItems false fuel)

/-- The entries of a flow mapping. -/
def flowEntries (first : Bool) : Nat → Build (List (Node × Node))
  | 0 => do fail (← peek) "did not find expected ',' or '\x7d'"
  | fuel + 1 => do
    if (← peek).kind = .flowMappingEnd then do
      skip
      return []
    else
      if !first then
        let t ← peek
        if t.kind = .flowEntry then skip
        else fail t "did not find expected ',' or '\x7d'"
      let t ← peek
      match t.kind with
      | .key => do
        skip
        let k ← (match (← peek).kind with
          | .value | .flowEntry | .flowMappingEnd => do nothing (← peek).start
          | _ => node false false fuel : Build Node)
        let v ← (do
          let t ← peek
          if t.kind = .value then
            skip
            match (← peek).kind with
            | .flowEntry | .flowMappingEnd => do nothing (← peek).start
            | _ => node false false fuel
          else nothing t.start : Build Node)
        cons (k, v) (flowEntries false fuel)
      | .flowMappingEnd => do
        skip
        return []
      | _ => do
        let k ← node false false fuel
        -- A key alone has the null scalar for its value.
        let v ← nothing (← peek).start
        cons (k, v) (flowEntries false fuel)

end

/-- The directives in front of a document, each at most once. -/
def directives : Nat → Bool → Build Unit
  | 0, _ => pure ()
  | fuel + 1, versioned => do
    let t ← peek
    match t.kind with
    | .versionDirective major minor =>
      if versioned then fail t "found duplicate %YAML directive"
      else if major ≠ 1 || (minor ≠ 1 && minor ≠ 2) then fail t "found incompatible YAML document"
      else do
        skip
        directives fuel true
    | .tagDirective handle start => do
      if (← get).handles.any (·.1 = handle) then fail t "found duplicate %TAG directive"
      else
        skip
        modify fun b => { b with handles := b.handles ++ [(handle, start)] }
        directives fuel versioned
    | _ => return ()

/-- Pass over end markers. -/
def passEnds : Nat → Build Unit
  | 0 => pure ()
  | fuel + 1 => do
    if (← peek).kind = .documentEnd then
      skip
      passEnds fuel

/-- The one document of a stream. -/
def document : Build Node := do
  let fuel := 4 * (← get).rest.length + 4
  if (← peek).kind = .streamEnd then nothing (← peek).start
  else
    let root ← (match (← peek).kind with
      | .versionDirective .. | .tagDirective .. | .documentStart => do
        directives fuel false
        let t ← peek
        if t.kind ≠ .documentStart then fail t "did not find expected <document start>"
        else
          skip
          let t ← peek
          match t.kind with
          | .versionDirective .. | .tagDirective .. | .documentStart | .documentEnd
          | .streamEnd => nothing t.start
          | _ => node true false fuel
      | _ => node true false fuel : Build Node)
    -- Document end markers may follow, a second document must not.
    passEnds fuel
    let t ← peek
    if t.kind = .streamEnd then return root
    else fail t "deserializing from YAML containing more than one document is not supported"

end Builder

/-- The document of a text. -/
def Document.parse (text : List Char) : Except SyntaxFault Document := do
  let start : Builder := { rest := (← tokens text).toList }
  let (root, b) ← Builder.document.run start
  return ⟨root, b.anchored, b.events⟩

end Deployment.Yaml
