import MappingMetadata.Assoc
import MappingMetadata.Kind

/-!
# Annotations

One piece of mapping metadata: its kind, the site it sits on (nested annotations have none), and
its fields in the order in which they were given. A field's value may nest further annotations.

`Annotation.same` is the equality that matters to a reader: fields may stand in any order.
-/

namespace MappingMetadata

/-- The place an annotation is attached to. -/
inductive Site where
  | onClass (className : String)
  | onField (className name : String)
  | onMethod (className name : String)
  deriving DecidableEq, Repr, Inhabited

/-- The class that owns the site. -/
def Site.className : Site → String
  | .onClass c | .onField c _ | .onMethod c _ => c

mutual

/-- The value of a field. -/
inductive Value where
  | string (s : String)
  | int (n : Int64)
  | bool (b : Bool)
  /-- A constant of an enum type. -/
  | constant (typeName tag : String)
  /-- The full name of a class. -/
  | classRef (name : String)
  | strings (items : List String)
  /-- Constants of one enum type. -/
  | constants (typeName : String) (tags : List String)
  | classRefs (names : List String)
  | nested (a : Annotation)
  | array (items : List Annotation)
  deriving Repr

/-- A kind, a site, and named values. -/
structure Annotation where
  kind : Kind
  site : Option Site
  fields : List (String × Value)
  deriving Repr

end

instance : Inhabited Annotation := ⟨⟨.column, none, []⟩⟩

/-! ## Reading values -/

namespace Value

/-- A value that is one text: a string, a class, or the tag of a constant. -/
def string? : Value → Option String
  | .string s | .classRef s | .constant _ s => some s
  | _ => none

def int? : Value → Option Int64
  | .int n => some n
  | _ => none

def bool? : Value → Option Bool
  | .bool b => some b
  | _ => none

def strings? : Value → Option (List String)
  | .strings items => some items
  | _ => none

/-- The names in a list of constants or of classes. -/
def names? : Value → Option (List String)
  | .constants _ tags => some tags
  | .classRefs names => some names
  | _ => none

def nested? : Value → Option Annotation
  | .nested a => some a
  | _ => none

def array? : Value → Option (List Annotation)
  | .array items => some items
  | _ => none

end Value

/-! ## Annotations -/

namespace Annotation

/-- An annotation without fields. -/
def marker (kind : Kind) (site : Option Site) : Annotation := ⟨kind, site, []⟩

/-- An annotation that wraps others in its field `value`. -/
def wrapper (kind : Kind) (site : Option Site) (members : List Annotation) : Annotation :=
  ⟨kind, site, [("value", .array members)]⟩

/-- The value of a field. -/
def field? (a : Annotation) (name : String) : Option Value := Assoc.get? a.fields name

/-- The text of a field. -/
def string? (a : Annotation) (name : String) : Option String := (a.field? name).bind Value.string?

/-- The name, when there is a field `name` that is a text. -/
def name? (a : Annotation) : Option String := a.string? "name"

/-- The annotations in the field `value`; none for an annotation that wraps nothing. -/
def members (a : Annotation) : List Annotation :=
  ((a.field? "value").bind Value.array?).getD []

/-- The annotation without its site, as it is nested in another one. -/
def detached (a : Annotation) : Annotation := { a with site := none }

/-- The annotation on another site, or on none. -/
def withSite (a : Annotation) (site : Option Site) : Annotation := { a with site := site }

@[simp] theorem detached_kind (a : Annotation) : a.detached.kind = a.kind := rfl
@[simp] theorem detached_site (a : Annotation) : a.detached.site = none := rfl
@[simp] theorem detached_fields (a : Annotation) : a.detached.fields = a.fields := rfl
@[simp] theorem name?_detached (a : Annotation) : a.detached.name? = a.name? := rfl
@[simp] theorem members_detached (a : Annotation) : a.detached.members = a.members := rfl
@[simp] theorem members_wrapper (k : Kind) (s : Option Site) (ms : List Annotation) :
    (wrapper k s ms).members = ms := rfl

end Annotation

/-! ## Equality up to the order of fields -/

mutual

/-- Equal values, the fields of nested annotations in any order. -/
def Value.same : Value → Value → Bool
  | .string s, .string t => s == t
  | .int m, .int n => m == n
  | .bool b, .bool c => b == c
  | .constant s t, .constant s' t' => s == s' && t == t'
  | .classRef s, .classRef t => s == t
  | .strings xs, .strings ys => xs == ys
  | .constants s xs, .constants t ys => s == t && xs == ys
  | .classRefs xs, .classRefs ys => xs == ys
  | .nested a, .nested b => a.same b
  | .array xs, .array ys => Annotation.sameList xs ys
  | _, _ => false

/-- Equal annotations, their fields in any order. -/
def Annotation.same : Annotation → Annotation → Bool
  | ⟨k, s, fs⟩, ⟨k', s', gs⟩ =>
    k == k' && s == s' && fs.length == gs.length && Annotation.fieldsWithin fs gs

/-- Equal lists of annotations, in the same order. -/
def Annotation.sameList : List Annotation → List Annotation → Bool
  | [], [] => true
  | a :: as, b :: bs => a.same b && Annotation.sameList as bs
  | _, _ => false

/-- Each of the fields is among the others with the same value. -/
def Annotation.fieldsWithin : List (String × Value) → List (String × Value) → Bool
  | [], _ => true
  | (n, v) :: fs, gs =>
    (match Assoc.get? gs n with
      | some w => v.same w
      | none => false) && Annotation.fieldsWithin fs gs

end

end MappingMetadata
