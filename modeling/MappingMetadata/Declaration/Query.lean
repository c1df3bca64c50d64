import MappingMetadata.Attributes
import MappingMetadata.Choice
import MappingMetadata.ClassPath

/-!
# Queries

Declarations of named queries and of the mappings of their results. The classes that native
queries and entity results refer to are looked up on the class path; a class that cannot be
loaded makes the whole annotation fail.
-/

namespace MappingMetadata.Declaration

/-- A hint to the query engine. -/
structure QueryHint where
  name : Option String := none
  value : Option String := none
  deriving DecidableEq, Repr, Inhabited

def QueryHint.annotation (h : QueryHint) : Annotation :=
  .ofEntries .queryHint none [("name", .string h.name), ("value", .string h.value)]

/-- A query in the query language of the object model. -/
structure NamedQuery where
  name : Option String := none
  query : Option String := none
  lockMode : Option LockMode := none
  hints : List QueryHint := []
  deriving DecidableEq, Repr, Inhabited

namespace NamedQuery

def entries (q : NamedQuery) : List (String × Entry) :=
  [("name", .string q.name),
   ("query", .string q.query),
   ("lockMode", .constant "LockModeType" (q.lockMode.map LockMode.name)),
   ("hints", .array (q.hints.map QueryHint.annotation))]

def annotation (q : NamedQuery) : Annotation := .ofEntries .namedQuery none q.entries

end NamedQuery

/-- A query in the language of the database. -/
structure NamedNativeQuery where
  name : Option String := none
  query : Option String := none
  resultSetMapping : Option String := none
  resultClass : Option String := none
  hints : List QueryHint := []
  deriving DecidableEq, Repr, Inhabited

namespace NamedNativeQuery

/-- What the query states, its result class already looked up. -/
def entries (q : NamedNativeQuery) (resultClass : Option String) : List (String × Entry) :=
  [("name", .string q.name),
   ("query", .string q.query),
   ("resultSetMapping", .string q.resultSetMapping),
   ("resultClass", .classRef resultClass),
   ("hints", .array (q.hints.map QueryHint.annotation))]

def annotation (q : NamedNativeQuery) (path : ClassPath) (d : Defaults) : Outcome Annotation := do
  let resultClass ← path.resolve? d q.resultClass "named native query"
  return .ofEntries .namedNativeQuery none (q.entries resultClass)

end NamedNativeQuery

/-- The column from which a field of an entity is read. -/
structure FieldResult where
  name : Option String := none
  column : Option String := none
  deriving DecidableEq, Repr, Inhabited

def FieldResult.annotation (r : FieldResult) : Annotation :=
  .ofEntries .fieldResult none [("name", .string r.name), ("column", .string r.column)]

/-- How an entity is read from the columns of a result. -/
structure EntityResult where
  entityClass : Option String := none
  discriminatorColumn : Option String := none
  fields : List FieldResult := []
  deriving DecidableEq, Repr, Inhabited

namespace EntityResult

/-- What the result states, its entity class already looked up. -/
def entries (r : EntityResult) (entityClass : Option String) : List (String × Entry) :=
  [("discriminatorColumn", .string r.discriminatorColumn),
   ("fields", .array (r.fields.map FieldResult.annotation)),
   ("entityClass", .classRef entityClass)]

def annotation (r : EntityResult) (path : ClassPath) (d : Defaults) : Outcome Annotation := do
  let entityClass ← path.resolve? d r.entityClass "entity result"
  return .ofEntries .entityResult none (r.entries entityClass)

end EntityResult

/-- A column that is returned as it is. -/
structure ColumnResult where
  name : Option String := none
  deriving DecidableEq, Repr, Inhabited

def ColumnResult.annotation (r : ColumnResult) : Annotation :=
  .ofEntries .columnResult none [("name", .string r.name)]

/-- How the rows of a result are read. -/
structure ResultSetMapping where
  name : Option String := none
  entities : List EntityResult := []
  columns : List ColumnResult := []
  deriving DecidableEq, Repr, Inhabited

namespace ResultSetMapping

/-- What the mapping states, its entity results already built. -/
def entries (m : ResultSetMapping) (entities : List Annotation) : List (String × Entry) :=
  [("name", .string m.name),
   ("entities", .array entities),
   ("columns", .array (m.columns.map ColumnResult.annotation))]

def annotation (m : ResultSetMapping) (path : ClassPath) (d : Defaults) : Outcome Annotation := do
  let entities ← m.entities.mapM fun r => r.annotation path d
  return .ofEntries .sqlResultSetMapping none (m.entries entities)

end ResultSetMapping

end MappingMetadata.Declaration
