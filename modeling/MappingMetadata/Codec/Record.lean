import MappingMetadata.Codec.Reading

/-!
# Records

A `Codec` is a way to write values of a type together with a way to read them. The codec of a
record is put together from its members, and each member is described once, for both directions.

A record is read from a map, where the order of the members is free, unknown keys are ignored and
a known key may occur only once; or from a list of its members in order, from whose end members
with a default may be missing. A record that has another one merged into it is read from a map
only, and the members of the merged record are settled before they are read.
-/

namespace MappingMetadata

/-- How values of a type are written and read. -/
structure Codec (α : Type) where
  write : α → Data
  read : Reader α

namespace Codec

def text : Codec String := ⟨.text, Reader.text⟩

def bool : Codec Bool := ⟨.bool, Reader.bool⟩

def int64 : Codec Int64 := ⟨.int, Reader.int64⟩

/-- An optional value is null when it is absent. -/
def optional {α : Type} (c : Codec α) : Codec (Option α) where
  write
    | some a => c.write a
    | none => .null
  read := Reader.optional c.read

def list {α : Type} (c : Codec α) : Codec (List α) where
  write as := .list (as.map c.write)
  read := Reader.list c.read

/-- A value of a closed vocabulary, written as its name. -/
def choice {α : Type} (values : List α) (name : α → String) : Codec α where
  write a := .text (name a)
  read := Reader.choice values name

/-- Values of another type, written and read by way of these. -/
def iso {α β : Type} (c : Codec α) (make : α → β) (back : β → α) : Codec β where
  write b := c.write (back b)
  read d t := return make (← c.read d t)

end Codec

/-! ## Members -/

/-- The name of a member; a key that is not a name is its place among the members. -/
def Reading.memberName (keys : List String) (key : Tree) : Reading (Option String) := do
  match ← Reading.node key with
  | .text s => return some s
  | .scalar s => return some s.text
  | .int n => if 0 ≤ n then return keys[n.toNat]? else failure
  | _ => failure

/-- The named members of a map: the known ones, each at most once, and the others in order. -/
def Reading.members (keys : List String) :
    List (Tree × Tree) → Reading (List (String × Tree) × List (String × Tree))
  | [] => return ([], [])
  | (key, value) :: entries => do
    let name ← Reading.memberName keys key
    let (known, others) ← Reading.members keys entries
    match name with
    | none => return (known, others)
    | some name =>
      if name ∈ keys then
        if (known.lookup name).isSome then failure else return ((name, value) :: known, others)
      else return (known, (name, value) :: others)

/-- The members of a record, as nested pairs that end in the unit. -/
structure Fields (α : Type) where
  keys : List String
  write : α → List (String × Data)
  /-- Read from named members. -/
  read : Nat → List (String × Tree) → Reading α
  /-- Read from members in order; what is left over is returned too. -/
  readItems : Nat → List Tree → Reading (α × List Tree)

namespace Fields

/-- No members. -/
def done : Fields Unit where
  keys := []
  write _ := []
  read _ _ := return ()
  readItems _ items := return ((), items)

/-- A member and the rest of the record; `absent` says what the member is when it is missing. -/
def member {α β : Type} (key : String) (c : Codec α) (absent : Option α) (rest : Fields β) :
    Fields (α × β) where
  keys := key :: rest.keys
  write p := (key, c.write p.1) :: rest.write p.2
  read d members := do
    let a ← match members.lookup key with
      | some t => c.read d t
      | none => Reading.ofOption absent
    return (a, ← rest.read d members)
  readItems d
    | t :: items => do
      let a ← c.read d t
      let (b, left) ← rest.readItems d items
      return ((a, b), left)
    | [] => do
      let a ← Reading.ofOption absent
      let (b, left) ← rest.readItems d []
      return ((a, b), left)

/-- A member that must be there. -/
def required {α β : Type} (key : String) (c : Codec α) (rest : Fields β) : Fields (α × β) :=
  member key c none rest

/-- A member that may be missing or null. -/
def optional {α β : Type} (key : String) (c : Codec α) (rest : Fields β) : Fields (Option α × β) :=
  member key c.optional (some none) rest

/-- A list that may be missing. -/
def list {α β : Type} (key : String) (c : Codec α) (rest : Fields β) : Fields (List α × β) :=
  member key c.list (some []) rest

/-- A truth value that may be missing. -/
def flag {β : Type} (key : String) (absent : Bool) (rest : Fields β) : Fields (Bool × β) :=
  member key Codec.bool (some absent) rest

/-- Values of another type with the same members. -/
def iso {α β : Type} (f : Fields α) (make : α → β) (back : β → α) : Fields β where
  keys := f.keys
  write b := f.write (back b)
  read d members := return make (← f.read d members)
  readItems d items := do
    let (a, left) ← f.readItems d items
    return (make a, left)

/-- Read all members in order, with none left over. -/
def readAll {α : Type} (f : Fields α) (d : Nat) (items : List Tree) : Reading α := do
  let (a, left) ← f.readItems d items
  if left.isEmpty then return a else failure

end Fields

/-! ## Whole records -/

namespace Codec

/-- A record with the given members. -/
def record {α : Type} (f : Fields α) : Codec α where
  write a := .record (f.write a)
  read d t := do
    match ← Reading.node t with
    | .map entries => Reading.enter d fun d => do
      let (known, _) ← Reading.members f.keys entries
      f.read d known
    | .list items => Reading.enter d fun d => f.readAll d items
    | .scalar s => if s.isNothing then f.read d [] else failure
    | _ => failure

/-- A record into which another one is merged. -/
def merged {α β : Type} (f : Fields α) (inner : Fields β) : Codec (α × β) where
  write p := .record (f.write p.1 ++ inner.write p.2)
  read d t := do
    match ← Reading.node t with
    | .map entries => Reading.enter d fun d => do
      let (known, others) ← Reading.members f.keys entries
      let a ← f.read d known
      let others ← others.mapM fun p => do return (Tree.text p.1, ← Reading.settle d p.2)
      let (known, _) ← Reading.members inner.keys others
      return (a, ← Reading.fromSettled (inner.read d known))
    | .scalar s => if s.isNothing then return (← f.read d [], ← inner.read d []) else failure
    | _ => failure

end Codec

end MappingMetadata
