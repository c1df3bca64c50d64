import MappingMetadata.Codec.Reading
import MappingMetadata.Yaml.Token

/-!
# YAML documents

The tokens of a text are put together to the tree of its one document. Nodes under anchors are
kept beside the tree, and an alias in the tree stands for a node by number.

An anchor gets as its number how many different names there were before it. A name that is used
again gets a new number, which a later name may share; of nodes with the same number the one that
began last counts.

Aliases may be followed a hundred times as often as the document has events: one for a scalar or
an alias, two for a collection.
-/

namespace MappingMetadata.Yaml

/-- The node under an anchor. -/
structure AnchoredNode where
  number : Nat
  /-- How many events there were before the node. -/
  start : Nat
  node : Tree

/-- A document of which a part has been put together. -/
structure Builder where
  tokens : List Token
  /-- The beginnings of tags by their handles. -/
  handles : List (String × String) := [("!", "!"), ("!!", "tag:yaml.org,2002:")]
  /-- The numbers of anchors by their names. -/
  numbers : List (String × Nat) := []
  anchored : List AnchoredNode := []
  events : Nat := 0

/-- A step in putting a document together. -/
abbrev Build := StateT Builder Option

namespace Build

/-- The next token; none at the end. -/
def peek : Build (Option Token) := return (← get).tokens.head?

/-- Go past a token. -/
def drop : Build Unit := modify fun b => { b with tokens := b.tokens.drop 1 }

/-- Go past the token if it comes next. -/
def accept (t : Token) : Build Bool := do
  if (← peek) = some t then
    drop
    return true
  else return false

/-- Does one of the tokens come next? -/
def atAny (ts : List Token) : Build Bool :=
  return (← peek).any fun t => ts.contains t

/-- Count events. -/
def count (n : Nat) : Build Unit := modify fun b => { b with events := b.events + n }

/-! ## Tags and anchors -/

/-- The full tag of a handle and a suffix. -/
def fullTag (handle suffix : String) : Build String := do
  if handle.isEmpty then return suffix
  match (← get).handles.lookup handle with
  | some start => return start ++ suffix
  | none => failure

/-- The tag and the anchor in front of a node, in either order. -/
def properties : Build (Option String × Option String) := do
  let anchor : Build (Option String) := do
    match ← peek with
    | some (.anchor name) => drop; return some name
    | _ => return none
  let tag : Build (Option (String × String)) := do
    match ← peek with
    | some (.tag handle suffix) => drop; return some (handle, suffix)
    | _ => return none
  let before ← anchor
  let found ← tag
  let name ← if before.isSome then pure before else if found.isSome then anchor else pure none
  match found with
  | some (handle, suffix) => return (some (← fullTag handle suffix), name)
  | none => return (none, name)

/-- The name of a tag that the document chose itself. -/
def ownTag? (tag : String) : Option String :=
  match tag.toList with
  | '!' :: [] => some "!"
  | '!' :: name => some (String.ofList name)
  | _ => none

/-- The type that a tag asks for. -/
def scalarTag (tag : String) : ScalarTag :=
  if tag == "tag:yaml.org,2002:null" then .null
  else if tag == "tag:yaml.org,2002:bool" then .bool
  else if tag == "tag:yaml.org,2002:int" then .int
  else if tag == "tag:yaml.org,2002:float" then .float
  else .foreign

/-- A scalar under a tag. -/
def scalar (tag : Option String) (text : String) (style : ScalarStyle) : Tree :=
  match tag with
  | none => .scalar ⟨text, style, .untagged⟩
  | some tag =>
    match ownTag? tag with
    | some name => .tagged name (.scalar ⟨text, style, .untagged⟩)
    | none => .scalar ⟨text, style, scalarTag tag⟩

/-- A collection under a tag. -/
def collection (tag : Option String) (t : Tree) : Tree :=
  match tag.bind ownTag? with
  | some name => .tagged name t
  | none => t

/-- The scalar that stands where nothing is written. -/
def nothing : Build Tree := do
  count 1
  return .scalar .empty

/-- Put a node together whose anchor is known before it begins. -/
def anchoring (name : Option String) (body : Build Tree) : Build Tree := do
  match name with
  | none => body
  | some name =>
    let b ← get
    let number := b.numbers.length
    let start := b.events
    set { b with numbers := (name, number) :: b.numbers.filter fun p => p.1 != name }
    let node ← body
    modify fun b => { b with anchored := ⟨number, start, node⟩ :: b.anchored }
    return node

/-! ## Nodes -/

mutual

/-- A node. A block collection may begin only in block context; a list that is not indented may
begin only as the key or value of a block map. -/
def node : Nat → Bool → Bool → Build Tree
  | 0, _, _ => failure
  | steps + 1, inBlock, indentless => do
    match ← peek with
    | some (.alias name) =>
      drop
      count 1
      match (← get).numbers.lookup name with
      | some number => return .alias number
      | none => failure
    | _ =>
      let (tag, anchor) ← properties
      anchoring anchor do
        match ← peek with
        | some .blockEntry =>
          if indentless then
            count 2
            return collection tag (.list (← indentlessList steps))
          else unwritten tag anchor
        | some (.scalar text style) =>
          drop
          count 1
          return scalar (if tag = some "!" then none else tag) text style
        | some .flowListStart =>
          drop
          count 2
          return collection tag (.list (← flowList steps true))
        | some .flowMapStart =>
          drop
          count 2
          return collection tag (.map (← flowMap steps true))
        | some .blockListStart =>
          if inBlock then
            drop
            count 2
            return collection tag (.list (← blockList steps))
          else unwritten tag anchor
        | some .blockMapStart =>
          if inBlock then
            drop
            count 2
            return collection tag (.map (← blockMap steps))
          else unwritten tag anchor
        | _ => unwritten tag anchor

/-- A tag or an anchor may stand for itself; without either there must be a node. -/
def unwritten (tag anchor : Option String) : Build Tree := do
  if tag.isNone && anchor.isNone then failure
  count 1
  return scalar tag "" .plain

/-- The items of a block list, up to its end. -/
def blockList : Nat → Build (List Tree)
  | 0 => failure
  | steps + 1 => do
    if ← accept .blockEnd then return []
    else if ← accept .blockEntry then
      let item ←
        if ← atAny [.blockEntry, .blockEnd] then nothing else node steps true false
      return item :: (← blockList steps)
    else failure

/-- The items of a list that is not indented. -/
def indentlessList : Nat → Build (List Tree)
  | 0 => failure
  | steps + 1 => do
    if ← accept .blockEntry then
      let item ←
        if ← atAny [.blockEntry, .key, .value, .blockEnd] then nothing
        else node steps true false
      return item :: (← indentlessList steps)
    else return []

/-- The entries of a block map, up to its end. -/
def blockMap : Nat → Build (List (Tree × Tree))
  | 0 => failure
  | steps + 1 => do
    if ← accept .blockEnd then return []
    else if ← accept .key then
      let key ← blockMapNode steps
      let value ← if ← accept .value then blockMapNode steps else nothing
      return (key, value) :: (← blockMap steps)
    else failure

/-- A key or a value of a block map. -/
def blockMapNode : Nat → Build Tree
  | 0 => failure
  | steps + 1 => do
    if ← atAny [.key, .value, .blockEnd] then nothing else node steps true true

/-- The items of a flow list, up to its end. -/
def flowList : Nat → Bool → Build (List Tree)
  | 0, _ => failure
  | steps + 1, first => do
    if ← accept .flowListEnd then return []
    if !first then
      if !(← accept .flowEntry) then failure
    if ← accept .flowListEnd then return []
    else if ← accept .key then
      count 2
      let entry ← flowPair steps
      return .map [entry] :: (← flowList steps false)
    else
      let item ← node steps false false
      return item :: (← flowList steps false)

/-- A single entry of a map as an item of a flow list. Where its key is not written, the token
after the mark of the key is passed over. -/
def flowPair : Nat → Build (Tree × Tree)
  | 0 => failure
  | steps + 1 => do
    let key ←
      if ← atAny [.value, .flowEntry, .flowListEnd] then
        drop
        nothing
      else node steps false false
    let value ←
      if ← accept .value then
        if ← atAny [.flowEntry, .flowListEnd] then nothing else node steps false false
      else nothing
    return (key, value)

/-- The entries of a flow map, up to its end. -/
def flowMap : Nat → Bool → Build (List (Tree × Tree))
  | 0, _ => failure
  | steps + 1, first => do
    if ← accept .flowMapEnd then return []
    if !first then
      if !(← accept .flowEntry) then failure
    if ← accept .flowMapEnd then return []
    else if ← accept .key then
      let key ←
        if ← atAny [.value, .flowEntry, .flowMapEnd] then nothing else node steps false false
      let value ←
        if ← accept .value then
          if ← atAny [.flowEntry, .flowMapEnd] then nothing else node steps false false
        else nothing
      return (key, value) :: (← flowMap steps false)
    else
      let key ← node steps false false
      let value ← nothing
      return (key, value) :: (← flowMap steps false)

end

/-! ## The document -/

/-- The directives in front of a document: at most one version, and no handle twice. -/
def directives : Nat → Bool → List String → Build Unit
  | 0, _, _ => failure
  | steps + 1, versioned, handles => do
    match ← peek with
    | some (.version major minor) =>
      if versioned || major != 1 || (minor != 1 && minor != 2) then failure
      drop
      directives steps true handles
    | some (.tagHandle handle start) =>
      if handles.contains handle then failure
      drop
      modify fun b => { b with handles := (handle, start) :: b.handles }
      directives steps versioned (handle :: handles)
    | _ => return ()

/-- The content of the only document. -/
def document (steps : Nat) : Build Tree := do
  match ← peek with
  | none => nothing
  | some (.version ..) | some (.tagHandle ..) | some .documentStart =>
    directives steps false []
    if !(← accept .documentStart) then failure
    match ← peek with
    | none | some (.version ..) | some (.tagHandle ..) | some .documentStart
    | some .documentEnd => nothing
    | _ => node steps true false
  | _ => node steps true false

/-- Go past the marks for the end of the document; nothing else may follow. -/
def finish : Build Unit := do
  if !(← get).tokens.all (· = Token.documentEnd) then failure

end Build

/-- How many lists and maps may stand inside one another where values are read. -/
def maxDepth : Nat := 128

/-- The tree of the document in a text, and what its aliases stand for. -/
def parse? (text : String) : Option (Tree × Surroundings) := do
  let tokens ← tokens? text
  let build : Build Tree := do
    let t ← Build.document (8 * tokens.length + 8)
    Build.finish
    return t
  let (t, b) ← build.run { tokens := tokens }
  let anchored := b.anchored.mergeSort fun m n => n.start ≤ m.start
  return (t, { anchors := anchored.map fun n => (n.number, n.node), jumps := 100 * b.events })

end MappingMetadata.Yaml
