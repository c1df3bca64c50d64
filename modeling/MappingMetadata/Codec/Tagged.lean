import MappingMetadata.Codec.Record

/-!
# Alternatives told apart by a tag

The tag stands among the members of the alternative (`taggedInside`), or in a member of its own
beside the content (`taggedBeside`). As the tag may come after what it decides about, the other
members are settled; beside the content this happens only when the tag does come later.
-/

namespace MappingMetadata

/-- One alternative: a record of a certain shape, as a value of a common type. -/
structure Variant (α : Type) where
  keys : List String
  read : Nat → List (String × Tree) → Reading α
  readAll : Nat → List Tree → Reading α

/-- The alternative with the given members. -/
def Fields.variant {α β : Type} (f : Fields α) (make : α → β) : Variant β where
  keys := f.keys
  read d members := return make (← f.read d members)
  readAll d items := return make (← f.readAll d items)

namespace Reading

/-- The alternative that a tag names; in settled trees also by its place. -/
def alternative {α : Type} (alternatives : List (String × α)) (tag : Tree) : Reading α := do
  match ← node tag with
  | .text s => ofOption (alternatives.lookup s)
  | .scalar s => ofOption (alternatives.lookup s.text)
  | .int n =>
    if ← comesFrom .text then failure
    else if 0 ≤ n then ofOption (alternatives[n.toNat]?.map Prod.snd)
    else failure
  | _ => failure

/-- Look for the one entry whose settled key is the tag's; the other entries are settled. -/
def splitTag (key : String) (d : Nat) :
    List (Tree × Tree) → Reading (Option Tree × List (Tree × Tree))
  | [] => return (none, [])
  | (k, v) :: entries => do
    let k ← settle d k
    let isTag := match k with
      | .text s => s == key
      | _ => false
    if isTag then
      match ← splitTag key d entries with
      | (none, others) => return (some v, others)
      | (some _, _) => failure
    else
      let v ← settle d v
      let (tag, others) ← splitTag key d entries
      return (tag, (k, v) :: others)

end Reading

namespace Reader

open Reading

/-- A record whose tag is one of its members, or a list that begins with the tag. -/
def taggedInside {α : Type} (key : String) (variants : List (String × Variant α)) : Reader α :=
  fun d t => do
    match ← follow t with
    | .map entries => enter d fun d => do
      let (tag, others) ← splitTag key d entries
      let v ← alternative variants (← ofOption tag)
      fromSettled do
        let (known, _) ← members v.keys others
        v.read d known
    | .list (tag :: items) => enter d fun d => do
      let v ← alternative variants tag
      let items ← items.mapM (settle d)
      fromSettled (v.readAll d items)
    | _ => failure

/-- A tag and a content, as two members or as a list of two. -/
def taggedBeside {α : Type} (tagKey contentKey : String) (contents : List (String × Reader α)) :
    Reader α :=
  let tag : Reader (Reader α) := fun d t => do
    return (← choice contents Prod.fst d t).2
  fun d t => do
    match ← node t with
    | .map entries => enter d fun d => do
      match (← members [tagKey, contentKey] entries).1 with
      | [(k, a), (_, b)] =>
        if k = tagKey then (← tag d a) d b
        else do
          let content ← settle d a
          let r ← tag d b
          fromSettled (r d content)
      | _ => failure
    | .list [a, b] => enter d fun d => do (← tag d a) d b
    | _ => failure

/-- The same reader, except that the node must not bear a tag of its own. -/
def untagged {α : Type} (r : Reader α) : Reader α := fun d t => do
  match ← follow t with
  | .tagged .. => failure
  | t => r d t

end Reader

end MappingMetadata
