import MappingMetadata.Assoc
import MappingMetadata.Codec.Tree

/-!
# Reading trees

A reading either yields a value or fails; which of several faults made it fail does not matter.
It carries the anchors that aliases stand for, and how many aliases may still be followed.

A value can be read where it stands, or it is *settled* first: its open scalars get the meaning
they have by themselves, its aliases are replaced by what they stand for. Settling comes first
where what is expected is known only later.

Every reader has a depth budget, the number of lists, maps and records that may still be entered;
readers are structurally recursive in it.
-/

namespace MappingMetadata

/-- Where a tree comes from. -/
inductive Origin where
  /-- It stands in the text. -/
  | text
  /-- It was settled and is kept for another attempt. -/
  | kept
  /-- It was settled for this reader alone. -/
  | settled
  deriving DecidableEq, Repr

/-- What a reading carries along. -/
structure Surroundings where
  /-- The nodes under anchors; the first one for an anchor counts. -/
  anchors : List (Nat × Tree) := []
  /-- How many aliases may still be followed. -/
  jumps : Nat := 0
  origin : Origin := .text

/-- An attempt to read. -/
abbrev Reading := StateT Surroundings Option

/-- A way to read values of a type within a depth budget. -/
abbrev Reader (α : Type) := Nat → Tree → Reading α

namespace Reading

/-- Go on with one level less of the depth budget. -/
def enter {α : Type} (depth : Nat) (body : Nat → Reading α) : Reading α :=
  match depth with
  | 0 => failure
  | d + 1 => body d

/-- The node itself, or the one that an alias stands for. -/
def follow : Tree → Reading Tree
  | .alias anchor => do
    let s ← get
    match s.anchors.lookup anchor, s.jumps with
    | some t, jumps + 1 => do
      set { s with jumps := jumps }
      return t
    | _, _ => failure
  | t => return t

/-- The node itself or the one that an alias stands for, without a tag of its own. -/
def node (t : Tree) : Reading Tree := return (← follow t).untag

/-- Does the tree come from somewhere? -/
def comesFrom (o : Origin) : Reading Bool := return (← get).origin = o

/-- Read with settled trees of one's own. -/
def fromSettled {α : Type} (r : Reading α) : Reading α := do
  let o := (← get).origin
  modify fun s => { s with origin := .settled }
  let a ← r
  modify fun s => { s with origin := o }
  return a

/-- Read with settled trees that are kept. -/
def fromKept {α : Type} (r : Reading α) : Reading α := do
  let o := (← get).origin
  modify fun s => { s with origin := .kept }
  let a ← r
  modify fun s => { s with origin := o }
  return a

/-- An optional result as a reading. -/
def ofOption {α : Type} : Option α → Reading α
  | some a => return a
  | none => failure

/-! ## Settling -/

/-- The meaning of a scalar by itself: that of its tag, or of its text when it is plain. -/
def settleScalar (s : Scalar) : Option Tree :=
  match s.tag with
  | .null => if Yaml.Schema.isNull s.text then some .null else none
  | .bool => (Yaml.Schema.bool? s.text).map .bool
  | .int =>
    match Yaml.Schema.int? s.text with
    | some n => if Yaml.Schema.isWord n then some (.int n) else none
    | none => none
  | .float => if Yaml.Schema.isFloat s.text then some .float else none
  | .foreign => some (.text s.text)
  | .untagged =>
    if s.style = .plain then
      match Yaml.Schema.meaning s.text with
      | .null => some .null
      | .bool b => some (.bool b)
      | .int n => some (.int n)
      | .hugeInt => none
      | .float => some .float
      | .text => some (.text s.text)
    else some (.text s.text)

/-- Settle a leaf. -/
def settleLeaf : Tree → Option Tree
  | .scalar s => settleScalar s
  | .null => some .null
  | .bool b => some (.bool b)
  | .int n => some (.int n)
  | .float => some .float
  | .text s => some (.text s)
  | _ => none

/-- Settle a tree. A tag that the document chose itself has no meaning here. -/
def settle : Reader Tree
  | 0, t => do ofOption (settleLeaf (← follow t))
  | d + 1, t => do
    match ← follow t with
    | .list items => return .list (← items.mapM (settle d))
    | .map entries =>
      return .map (← entries.mapM fun p => do return (← settle d p.1, ← settle d p.2))
    | t => ofOption (settleLeaf t)

end Reading

/-! ## Readers -/

namespace Reader

open Reading

/-- A text; a scalar of any meaning is one. -/
def text : Reader String := fun _ t => do
  match ← node t with
  | .text s => return s
  | .scalar s => return s.text
  | _ => failure

/-- A truth value. -/
def bool : Reader Bool := fun _ t => do
  match ← node t with
  | .bool b => return b
  | .scalar s => ofOption s.bool?
  | _ => failure

/-- An integer as a word with a sign, if it fits. -/
def toInt64? (n : Int) : Option Int64 :=
  if -Nat.pow 2 63 ≤ n ∧ n < Nat.pow 2 63 then some (Int64.ofInt n) else none

/-- A 64-bit integer. -/
def int64 : Reader Int64 := fun _ t => do
  match ← node t with
  | .int n => ofOption (toInt64? n)
  | .scalar s => ofOption (s.int?.bind toInt64?)
  | _ => failure

/-- Null, or a value. A scalar is null when it is plain and says so; a tag that asks for null
admits nothing else. -/
def optional {α : Type} (r : Reader α) : Reader (Option α) := fun d t => do
  match ← follow t with
  | .null => return none
  | .scalar s =>
    if s.style = .plain ∧ s.tag = .null then
      if Yaml.Schema.isNull s.text then return none else failure
    else if s.tag = .untagged ∧ s.isPlainNull then return none
    else return some (← r d (.scalar s))
  | t => return some (← r d t)

/-- A list. -/
def list {α : Type} (r : Reader α) : Reader (List α) := fun d t => do
  match ← node t with
  | .list items => enter d fun d => items.mapM (r d)
  | .scalar s => if s.isNothing then return [] else failure
  | _ => failure

/-- A map; a repeated key keeps its first place and its last value. -/
def dict {κ ν : Type} [DecidableEq κ] (key : Reader κ) (value : Reader ν) :
    Reader (Dict κ ν) := fun d t => do
  match ← node t with
  | .map entries => enter d fun d =>
    return Dict.ofList (← entries.mapM fun p => do return (← key d p.1, ← value d p.2))
  | .scalar s => if s.isNothing then return {} else failure
  | _ => failure

/-- One of a list of values by its name. The name may also be the tag of an empty node, or the
only key of a map whose value is null. -/
def choice {α : Type} (values : List α) (name : α → String) : Reader α := fun d t => do
  let byName (s : String) : Reading α := ofOption (values.find? fun a => name a == s)
  match ← follow t with
  | .text s => byName s
  | .scalar s => byName s.text
  | .tagged s (.scalar v) => if v.isPlainNull then byName s else failure
  | .map [(key, value)] => enter d fun _ => do
    match value with
    | .null => pure ()
    | .map [] => if ← comesFrom .settled then pure () else failure
    | _ => failure
    match key with
    | .text s => byName s
    | .int n => if 0 ≤ n then ofOption values[n.toNat]? else failure
    | _ => failure
  | _ => failure

end Reader

end MappingMetadata
