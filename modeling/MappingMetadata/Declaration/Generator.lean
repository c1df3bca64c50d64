import MappingMetadata.Declaration.Table

/-!
# Generators

Declarations of how identifiers are generated. Their schemas and catalogs are stated as declared;
the defaults of a document do not apply to them.
-/

namespace MappingMetadata.Declaration

/-- A generator that keeps its counters in a table. -/
structure TableGenerator where
  name : Option String := none
  catalog : Option String := none
  schema : Option String := none
  table : Option String := none
  pkColumnName : Option String := none
  valueColumnName : Option String := none
  pkColumnValue : Option String := none
  initialValue : Option Int64 := none
  allocationSize : Option Int64 := none
  uniqueConstraints : List UniqueConstraint := []
  deriving DecidableEq, Repr, Inhabited

namespace TableGenerator

def entries (g : TableGenerator) : List (String × Entry) :=
  [("name", .string g.name),
   ("catalog", .string g.catalog),
   ("schema", .string g.schema),
   ("table", .string g.table),
   ("pkColumnName", .string g.pkColumnName),
   ("valueColumnName", .string g.valueColumnName),
   ("pkColumnValue", .string g.pkColumnValue),
   ("initialValue", .int g.initialValue),
   ("allocationSize", .int g.allocationSize),
   ("uniqueConstraints", .array (g.uniqueConstraints.map UniqueConstraint.annotation))]

def annotation (g : TableGenerator) : Annotation := .ofEntries .tableGenerator none g.entries

end TableGenerator

/-- A generator that draws from a sequence of the database. -/
structure SequenceGenerator where
  name : Option String := none
  catalog : Option String := none
  schema : Option String := none
  sequenceName : Option String := none
  initialValue : Option Int64 := none
  allocationSize : Option Int64 := none
  deriving DecidableEq, Repr, Inhabited

namespace SequenceGenerator

def entries (g : SequenceGenerator) : List (String × Entry) :=
  [("name", .string g.name),
   ("catalog", .string g.catalog),
   ("schema", .string g.schema),
   ("sequenceName", .string g.sequenceName),
   ("initialValue", .int g.initialValue),
   ("allocationSize", .int g.allocationSize)]

def annotation (g : SequenceGenerator) : Annotation :=
  .ofEntries .sequenceGenerator none g.entries

end SequenceGenerator

end MappingMetadata.Declaration
