import MappingMetadata.Attributes
import MappingMetadata.Error
import MappingMetadata.Index

/-!
# The registry of global declarations

Generators, queries and result-set mappings belong to no class. The registry keeps the latest
declaration of each name, kind by kind, in the order in which the names were first registered.

Finishing yields one annotation for each kind that has names, and harvesting finds the
declarations in an index, single or wrapped.
-/

namespace MappingMetadata

/-- A kind of global declaration. -/
inductive GlobalKind where
  | tableGenerator | sequenceGenerator | namedQuery | namedNativeQuery | sqlResultSetMapping
  deriving DecidableEq, Repr, Inhabited

namespace GlobalKind

/-- All kinds, in the order in which they are finished. -/
def all : List GlobalKind :=
  [.tableGenerator, .sequenceGenerator, .namedQuery, .namedNativeQuery, .sqlResultSetMapping]

/-- The name under which a kind is written. -/
def name : GlobalKind → String
  | tableGenerator => "tableGenerator"
  | sequenceGenerator => "sequenceGenerator"
  | namedQuery => "namedQuery"
  | namedNativeQuery => "namedNativeQuery"
  | sqlResultSetMapping => "sqlResultSetMapping"

/-- The kind of the annotation for one declaration. -/
def scalar : GlobalKind → Kind
  | tableGenerator => .tableGenerator
  | sequenceGenerator => .sequenceGenerator
  | namedQuery => .namedQuery
  | namedNativeQuery => .namedNativeQuery
  | sqlResultSetMapping => .sqlResultSetMapping

/-- The kind of the wrapper around several declarations. -/
def wrapper : GlobalKind → Kind
  | tableGenerator => .tableGenerators
  | sequenceGenerator => .sequenceGenerators
  | namedQuery => .namedQueries
  | namedNativeQuery => .namedNativeQueries
  | sqlResultSetMapping => .sqlResultSetMappings

/-- The declarations that annotations of a kind stand for. -/
def ofScalar? (k : Kind) : Option GlobalKind := all.find? fun g => g.scalar = k

/-- The declarations that annotations of a kind wrap. -/
def ofWrapper? (k : Kind) : Option GlobalKind := all.find? fun g => g.wrapper = k

theorem mem_all (g : GlobalKind) : g ∈ all := by cases g <;> decide

theorem plural_scalar (g : GlobalKind) : g.scalar.plural = some g.wrapper := by cases g <;> rfl

theorem ofScalar?_eq_some_iff (k : Kind) (g : GlobalKind) :
    ofScalar? k = some g ↔ g.scalar = k := by
  constructor
  · intro h
    simpa using List.find?_some h
  · rintro rfl
    cases g <;> rfl

theorem ofWrapper?_eq_some_iff (k : Kind) (g : GlobalKind) :
    ofWrapper? k = some g ↔ g.wrapper = k := by
  constructor
  · intro h
    simpa using List.find?_some h
  · rintro rfl
    cases g <;> rfl

end GlobalKind

/-- The global declarations that an annotation holds: itself when it is of a single kind, its
members when it is a wrapper. -/
def Annotation.declarations (a : Annotation) : List Annotation :=
  if (GlobalKind.ofScalar? a.kind).isSome then [a]
  else if (GlobalKind.ofWrapper? a.kind).isSome then a.members
  else []

/-- The latest declaration of each name. -/
structure Globals where
  group : GlobalKind → Dict String Annotation

namespace Globals

/-- The registry without declarations. -/
def empty : Globals := ⟨fun _ => {}⟩

instance : Inhabited Globals := ⟨empty⟩

/-- The latest declaration of a name. -/
def get? (g : Globals) (k : GlobalKind) (name : String) : Option Annotation :=
  (g.group k).get? name

/-- The names of a kind in the order of their first registration. -/
def names (g : Globals) (k : GlobalKind) : List String := (g.group k).keys

/-- All declarations, kind by kind. -/
def toList (g : Globals) : List (GlobalKind × String × Annotation) :=
  GlobalKind.all.flatMap fun k => (g.group k).entries.map fun p => (k, p)

/-- Number of declarations. -/
def size (g : Globals) : Nat := g.toList.length

/-- Is nothing registered? -/
def isEmpty (g : Globals) : Bool := g.toList.isEmpty

/-- Register a declaration; a name that is there already keeps its place. -/
def register (g : Globals) (k : GlobalKind) (name : String) (a : Annotation) : Globals :=
  let group := (g.group k).put name a
  ⟨fun k' => if k' = k then group else g.group k'⟩

theorem get?_register (g : Globals) (k : GlobalKind) (name : String) (a : Annotation)
    (k' : GlobalKind) (name' : String) :
    (g.register k name a).get? k' name' =
      if k = k' ∧ name = name' then some a else g.get? k' name' := by
  by_cases hk : k = k'
  · subst hk
    simp [register, get?, Dict.get?_put]
  · have hk' : ¬ k' = k := fun e => hk e.symm
    simp [register, get?, hk, hk']

theorem names_register (g : Globals) (k : GlobalKind) (name : String) (a : Annotation)
    (k' : GlobalKind) :
    (g.register k name a).names k' =
      if k = k' ∧ name ∉ g.names k' then g.names k' ++ [name] else g.names k' := by
  by_cases hk : k = k'
  · subst hk
    by_cases hn : name ∈ (g.group k).keys <;> simp [register, names, Dict.keys_put, hn]
  · have hk' : ¬ k' = k := fun e => hk e.symm
    simp [register, names, hk, hk']

/-- The kind and the name under which an annotation is registered. -/
def key (a : Annotation) : Outcome (GlobalKind × String) :=
  match GlobalKind.ofScalar? a.kind with
  | none => .error (.notGlobal a.kind)
  | some k =>
    match a.name? with
    | none => .error (.missingName a.kind)
    | some name => .ok (k, name)

/-- Register an annotation under its own kind and name, without its site. -/
def registerOwn (g : Globals) (a : Annotation) : Outcome Globals :=
  (key a).map fun p => g.register p.1 p.2 a.detached

/-- Register annotations one after another, up to the first that cannot be registered. -/
def registerAll (g : Globals) : List Annotation → Globals × Option Error
  | [] => (g, none)
  | a :: as =>
    match g.registerOwn a with
    | .ok g' => g'.registerAll as
    | .error e => (g, some e)

/-- The global declarations in an index, in the order of its annotations. -/
def harvest (ix : Index) : List Annotation := ix.toList.flatMap Annotation.declarations

/-- The finished declarations: for each kind nothing, the one declaration, or a wrapper. -/
def finish (g : Globals) : List Annotation :=
  GlobalKind.all.filterMap fun k =>
    Annotation.ofItems k.wrapper Annotation.withSite none (g.group k).values

end Globals

end MappingMetadata
