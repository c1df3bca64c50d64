import MappingMetadata.Codec.Tagged
import MappingMetadata.Index
import MappingMetadata.Session

/-!
# The written form of annotations

A site is tagged by its kind, a value by its type. An annotation writes its site only when it has
one, and its fields as a map in their order. An index is written class by class.

A snapshot of an index is either an index or a list of annotations; which of the two is found by
trying.
-/

namespace MappingMetadata

/-! ## Sites -/

namespace Site

def toData : Site → Data
  | onClass c => .record [("kind", .text "class"), ("class", .text c)]
  | onField c n => .record [("kind", .text "field"), ("class", .text c), ("name", .text n)]
  | onMethod c n => .record [("kind", .text "method"), ("class", .text c), ("name", .text n)]

/-- The members of a site on a class, and of one on a member of a class. -/
def variants : List (String × Variant Site) :=
  let onlyClass : Fields (String × Unit) := .required "class" .text .done
  let classAndName : Fields (String × String × Unit) :=
    .required "class" .text <| .required "name" .text .done
  [("class", onlyClass.variant fun p => onClass p.1),
   ("field", classAndName.variant fun p => onField p.1 p.2.1),
   ("method", classAndName.variant fun p => onMethod p.1 p.2.1)]

def codec : Codec Site := ⟨toData, Reader.taggedInside "kind" variants⟩

end Site

/-! ## Annotations -/

def Kind.codec : Codec Kind := .choice Kind.all Kind.name

/-- A value under the name of its type. -/
def Data.typed (type : String) (value : Data) : Data :=
  .record [("type", .text type), ("value", value)]

mutual

def Value.toData : Value → Data
  | .string s => .typed "string" (.text s)
  | .int n => .typed "int" (.int n)
  | .bool b => .typed "bool" (.bool b)
  | .constant typeName tag =>
    .typed "enum" (.record [("type_name", .text typeName), ("tag", .text tag)])
  | .classRef name => .typed "class" (.text name)
  | .strings items => .typed "stringArray" (.list (items.map .text))
  | .constants typeName tags =>
    .typed "enumArray"
      (.record [("type_name", .text typeName), ("tags", .list (tags.map .text))])
  | .classRefs names => .typed "classArray" (.list (names.map .text))
  | .nested a => .typed "nested" a.toData
  | .array items => .typed "array" <| .list <| Annotation.listToData items

def Annotation.toData : Annotation → Data
  | ⟨kind, site, fields⟩ =>
    .record (("kind", .text kind.name) ::
      (site.map fun s => ("target", s.toData)).toList ++
      [("fields", .record <| Annotation.fieldsToData fields)])

def Annotation.listToData : List Annotation → List Data
  | [] => []
  | a :: as => a.toData :: Annotation.listToData as

def Annotation.fieldsToData : List (String × Value) → List (String × Data)
  | [] => []
  | (name, v) :: fields => (name, v.toData) :: Annotation.fieldsToData fields

end

namespace Value

/-- A constant of an enum type, or several. -/
def constantMembers {α : Type} (key : String) (c : Codec α) : Reader (String × α × Unit) :=
  .untagged (Codec.record (.required "type_name" .text <| .required key c .done)).read

/-- How each type of value is read, given how nested annotations are. -/
def readers (inner : Reader Annotation) : List (String × Reader Value) :=
  let as {α : Type} (f : α → Value) (r : Reader α) : Reader Value := fun d t =>
    return f (← r d t)
  [("string", as string Reader.text),
   ("int", as int Reader.int64),
   ("bool", as bool Reader.bool),
   ("enum", as (fun p => constant p.1 p.2.1) (constantMembers "tag" .text)),
   ("class", as classRef Reader.text),
   ("stringArray", as strings (.list Reader.text)),
   ("enumArray", as (fun p => constants p.1 p.2.1) (constantMembers "tags" (.list .text))),
   ("classArray", as classRefs (.list Reader.text)),
   ("nested", as nested inner),
   ("array", as array (.list inner))]

/-- Read a value, given how nested annotations are read. -/
def readWith (inner : Reader Annotation) : Reader Value :=
  .taggedBeside "type" "value" (readers inner)

end Value

namespace Annotation

/-- Fields, given how the annotations nested in them are read. -/
def fieldsCodec (inner : Reader Annotation) : Codec Attributes where
  write fields := .record <| Annotation.fieldsToData fields
  read d t := return (← Reader.dict Reader.text (Value.readWith inner) d t).entries

/-- Read an annotation, given how those nested in it are read. -/
def readWith (inner : Reader Annotation) : Reader Annotation := fun d t => do
  let members := Codec.record <|
    .required "kind" Kind.codec <| .optional "target" Site.codec <|
    .member "fields" (fieldsCodec inner) (some []) .done
  let (kind, site, fields, _) ← members.read d t
  return ⟨kind, site, fields⟩

/-- Read an annotation in which others are nested to the given depth. -/
def readNested : Nat → Reader Annotation
  | 0 => fun _ _ => failure
  | n + 1 => readWith (readNested n)

/-- As every nesting enters a record, the depth budget bounds the nesting as well. -/
def codec : Codec Annotation := ⟨toData, fun d => readNested (d + 1) d⟩

end Annotation

def Value.codec : Codec Value := ⟨toData, Value.readWith Annotation.codec.read⟩

/-! ## Indexes -/

/-- The codec of a map whose keys are written as texts. -/
def Codec.dict {κ ν : Type} [DecidableEq κ] (keyText : κ → String) (key : Reader κ) (c : Codec ν) :
    Codec (Dict κ ν) where
  write m := .record (m.entries.map fun p => (keyText p.1, c.write p.2))
  read := Reader.dict key c.read

def ClassEntry.members : Fields ClassEntry :=
  Fields.iso (
    .flag "metadataComplete" false <|
    .member "annotations" (.dict Kind.name Kind.codec.read (.list Annotation.codec)) (some {}) <|
    .done)
    (fun (a, b, _) => ⟨a, b⟩)
    (fun r => (r.metadataComplete, r.annotations, ()))

def ClassEntry.codec : Codec ClassEntry := .record ClassEntry.members

/-- The codec of classes by their names. -/
def ClassEntry.dictCodec : Codec (Dict String ClassEntry) := .dict id Reader.text ClassEntry.codec

def Index.members : Fields Index :=
  Fields.iso (.required "classes" ClassEntry.dictCodec .done) (fun p => ⟨p.1⟩)
    (fun ix => (ix.classes, ()))

def Index.codec : Codec Index := .record Index.members

/-- Read a snapshot: a list of annotations, or else an index. -/
def Index.readSnapshot : Reader Index := fun d t => do
  let t ← Reading.settle d t
  Reading.fromKept do
    (return Index.ofList (← Reader.list Annotation.codec.read d t)) <|> Index.codec.read d t

/-! ## Metadata -/

def Metadata.toData (m : Metadata) : Data :=
  .record [("classes", ClassEntry.dictCodec.write m.classes),
    ("globals", Annotation.codec.list.write m.globals)]

end MappingMetadata
