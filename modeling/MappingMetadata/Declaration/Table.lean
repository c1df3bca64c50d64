import MappingMetadata.Declaration.Column
import MappingMetadata.Settings

/-!
# Tables

Join tables, collection tables and their unique constraints. A table that declares no schema or
catalog, or an empty one, takes it from the defaults.
-/

namespace MappingMetadata.Declaration

/-- Columns whose values together are unique in a table. -/
structure UniqueConstraint where
  name : Option String := none
  columnNames : List String := []
  deriving DecidableEq, Repr, Inhabited

namespace UniqueConstraint

def entries (c : UniqueConstraint) : List (String × Entry) :=
  [("name", .string c.name),
   ("columnNames", .strings c.columnNames)]

/-- Unique constraints are always nested. -/
def annotation (c : UniqueConstraint) : Annotation := .ofEntries .uniqueConstraint none c.entries

end UniqueConstraint

/-- The declared text unless it is absent or empty, else the default. -/
def orDefault (declared fallback : Option String) : Option String :=
  (declared.filter fun s => !s.isEmpty).or fallback

/-- The table that holds the pairs of an association. -/
structure JoinTable where
  name : Option String := none
  catalog : Option String := none
  schema : Option String := none
  joinColumns : List JoinColumn := []
  inverseJoinColumns : List JoinColumn := []
  uniqueConstraints : List UniqueConstraint := []
  deriving DecidableEq, Repr, Inhabited

namespace JoinTable

def entries (t : JoinTable) (d : Defaults) : List (String × Entry) :=
  [("name", .string t.name),
   ("catalog", .string (orDefault t.catalog d.catalog)),
   ("schema", .string (orDefault t.schema d.schema)),
   ("joinColumns", .array (JoinColumn.nested t.joinColumns)),
   ("inverseJoinColumns", .array (JoinColumn.nested t.inverseJoinColumns)),
   ("uniqueConstraints", .array (t.uniqueConstraints.map UniqueConstraint.annotation))]

def annotation (t : JoinTable) (d : Defaults) (site : Option Site) : Annotation :=
  .ofEntries .joinTable site (t.entries d)

end JoinTable

/-- The table that holds the elements of a collection. -/
structure CollectionTable where
  name : Option String := none
  catalog : Option String := none
  schema : Option String := none
  joinColumns : List JoinColumn := []
  uniqueConstraints : List UniqueConstraint := []
  deriving DecidableEq, Repr, Inhabited

namespace CollectionTable

def entries (t : CollectionTable) (d : Defaults) : List (String × Entry) :=
  [("name", .string t.name),
   ("catalog", .string (orDefault t.catalog d.catalog)),
   ("schema", .string (orDefault t.schema d.schema)),
   ("joinColumns", .array (JoinColumn.nested t.joinColumns)),
   ("uniqueConstraints", .array (t.uniqueConstraints.map UniqueConstraint.annotation))]

def annotation (t : CollectionTable) (d : Defaults) (site : Option Site) : Annotation :=
  .ofEntries .collectionTable site (t.entries d)

end CollectionTable

end MappingMetadata.Declaration
