import MappingMetadata.Yaml.Schema

/-!
# Data, written and read

`Data` is what the library writes: every value has one shape. `Tree` is what it reads: a parsed
text, in which the meaning of a leaf may still depend on what is expected there.

A `Tree` is *settled* when no leaf is open and no alias or tag is left; `ofData` embeds what was
written into the settled trees.
-/

namespace MappingMetadata

/-- Data to be written. -/
inductive Data where
  | null
  | bool (b : Bool)
  | int (n : Int64)
  | text (s : String)
  | list (items : List Data)
  | record (members : List (String × Data))
  deriving Repr, Inhabited

/-- How a scalar was written, as far as it bears on its meaning. -/
inductive ScalarStyle where
  | plain | literal | other
  deriving DecidableEq, Repr

/-- The type that a tag asks for. -/
inductive ScalarTag where
  | untagged | null | bool | int | float
  /-- A type that is read as text. -/
  | foreign
  deriving DecidableEq, Repr

/-- A scalar whose meaning is open. -/
structure Scalar where
  text : String
  style : ScalarStyle
  tag : ScalarTag
  deriving DecidableEq, Repr

namespace Scalar

/-- The plain scalar of no characters. -/
def empty : Scalar := ⟨"", .plain, .untagged⟩

/-- Nothing is written here; it also stands for a record, a map or a list without entries. -/
def isNothing (s : Scalar) : Bool := s.style = .plain && s.text.isEmpty

/-- Plain and blank, or one of the words for null. -/
def isPlainNull (s : Scalar) : Bool :=
  s.style = .plain && (s.text.isEmpty || Yaml.Schema.isNull s.text)

/-- May the scalar stand for a value of the tagged type where that type is expected? -/
def offers (s : Scalar) (t : ScalarTag) : Bool :=
  s.style = .plain || (s.style = .literal && s.tag = t)

/-- The truth value, where one is expected. -/
def bool? (s : Scalar) : Option Bool := if s.offers .bool then Yaml.Schema.bool? s.text else none

/-- The integer, where one is expected. -/
def int? (s : Scalar) : Option Int := if s.offers .int then Yaml.Schema.int? s.text else none

end Scalar

/-- A parsed text. -/
inductive Tree where
  | null
  | bool (b : Bool)
  | int (n : Int)
  /-- A number with a fraction or an exponent; nothing here takes one. -/
  | float
  | text (s : String)
  /-- A leaf that may stand where it is ignored but cannot be read. -/
  | unreadable
  /-- A scalar whose meaning depends on what is expected. -/
  | scalar (s : Scalar)
  | list (items : List Tree)
  | map (entries : List (Tree × Tree))
  /-- A node under a tag that the document chose itself. -/
  | tagged (tag : String) (t : Tree)
  /-- Another place for the node under an anchor. -/
  | alias (anchor : Nat)
  deriving Repr, Inhabited

namespace Tree

/-- The node without a tag of its own. -/
def untag : Tree → Tree
  | tagged _ t => t
  | t => t

mutual

/-- Written data as it is read back. -/
def ofData : Data → Tree
  | .null => .null
  | .bool b => .bool b
  | .int n => .int n.toInt
  | .text s => .text s
  | .list items => .list (ofItems items)
  | .record members => .map (ofMembers members)

def ofItems : List Data → List Tree
  | [] => []
  | d :: ds => ofData d :: ofItems ds

def ofMembers : List (String × Data) → List (Tree × Tree)
  | [] => []
  | (name, d) :: rest => (.text name, ofData d) :: ofMembers rest

end

end Tree

end MappingMetadata
