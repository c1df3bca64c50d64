import MappingMetadata.Text.Unicode

/-!
# Closed vocabularies

The words that a mapping document may use for access, temporal precision, enum storage, lock
modes, associations and cascades, each with the one name under which it is written.
-/

namespace MappingMetadata

/-- How the state of an object is reached: through its fields or its getters. -/
inductive Access where
  | field | property
  deriving DecidableEq, Repr, Inhabited

/-- All values, in declaration order. -/
def Access.values : List Access := [.field, .property]

/-- The name under which a value is written. -/
def Access.name : Access → String
  | .field => "FIELD"
  | .property => "PROPERTY"

/-- Reads an access type in any letter case. -/
def Access.parse? (s : String) : Option Access :=
  let capitals := Text.upper s
  Access.values.find? fun a => a.name == capitals

/-- What is said of a text that names no access type. -/
def Access.unknownMessage (s : String) : String := "Unknown access type: " ++ s

/-- Precision of a date or time. -/
inductive Temporal where
  | date | time | timestamp
  deriving DecidableEq, Repr, Inhabited

/-- All values, in declaration order. -/
def Temporal.values : List Temporal := [.date, .time, .timestamp]

/-- The name under which a value is written. -/
def Temporal.name : Temporal → String
  | .date => "DATE"
  | .time => "TIME"
  | .timestamp => "TIMESTAMP"

/-- How an enum value is stored. -/
inductive EnumForm where
  | ordinal | string
  deriving DecidableEq, Repr, Inhabited

/-- All values, in declaration order. -/
def EnumForm.values : List EnumForm := [.ordinal, .string]

/-- The name under which a value is written. -/
def EnumForm.name : EnumForm → String
  | .ordinal => "ORDINAL"
  | .string => "STRING"

/-- The lock that a named query asks for. -/
inductive LockMode where
  | read | write | optimistic | optimisticForceIncrement | pessimisticRead | pessimisticWrite
  | pessimisticForceIncrement | none
  deriving DecidableEq, Repr, Inhabited

/-- All values, in declaration order. -/
def LockMode.values : List LockMode :=
  [.read, .write, .optimistic, .optimisticForceIncrement, .pessimisticRead, .pessimisticWrite,
   .pessimisticForceIncrement, .none]

/-- The name under which a value is written. -/
def LockMode.name : LockMode → String
  | .read => "READ"
  | .write => "WRITE"
  | .optimistic => "OPTIMISTIC"
  | .optimisticForceIncrement => "OPTIMISTIC_FORCE_INCREMENT"
  | .pessimisticRead => "PESSIMISTIC_READ"
  | .pessimisticWrite => "PESSIMISTIC_WRITE"
  | .pessimisticForceIncrement => "PESSIMISTIC_FORCE_INCREMENT"
  | .none => "NONE"

/-- How two entities are associated. -/
inductive Association where
  | oneToOne | oneToMany | manyToOne | manyToMany
  deriving DecidableEq, Repr, Inhabited

/-- All values, in declaration order. -/
def Association.values : List Association := [.oneToOne, .oneToMany, .manyToOne, .manyToMany]

/-- The name under which a value is written. -/
def Association.name : Association → String
  | .oneToOne => "oneToOne"
  | .oneToMany => "oneToMany"
  | .manyToOne => "manyToOne"
  | .manyToMany => "manyToMany"

/-- An operation passed on from an entity to the entities associated with it. -/
inductive Cascade where
  | all | persist | merge | remove | refresh | detach
  deriving DecidableEq, Repr, Inhabited

/-- All values, in declaration order. -/
def Cascade.values : List Cascade := [.all, .persist, .merge, .remove, .refresh, .detach]

/-- The name under which a value is written. -/
def Cascade.name : Cascade → String
  | .all => "ALL"
  | .persist => "PERSIST"
  | .merge => "MERGE"
  | .remove => "REMOVE"
  | .refresh => "REFRESH"
  | .detach => "DETACH"

end MappingMetadata
