import MappingMetadata.Attributes

/-!
# Columns

The column declarations and the annotations they stand for. An annotation states what the
declaration states, under the same names; absent members and empty texts are left out.

A list of join columns becomes one annotation: the column itself, or a wrapper around several.
-/

namespace MappingMetadata.Declaration

/-- The column of a basic attribute. -/
structure Column where
  name : Option String := none
  columnDefinition : Option String := none
  table : Option String := none
  unique : Option Bool := none
  nullable : Option Bool := none
  insertable : Option Bool := none
  updatable : Option Bool := none
  length : Option Int64 := none
  precision : Option Int64 := none
  scale : Option Int64 := none
  deriving DecidableEq, Repr, Inhabited

namespace Column

/-- A column of which only the name is declared. -/
def named (name : String) : Column := { name := some name }

def entries (c : Column) : List (String × Entry) :=
  [("name", .string c.name),
   ("columnDefinition", .string c.columnDefinition),
   ("table", .string c.table),
   ("unique", .bool c.unique),
   ("nullable", .bool c.nullable),
   ("insertable", .bool c.insertable),
   ("updatable", .bool c.updatable),
   ("length", .int c.length),
   ("precision", .int c.precision),
   ("scale", .int c.scale)]

def annotation (c : Column) (site : Option Site) : Annotation :=
  .ofEntries .column site c.entries

end Column

/-- A column that refers to a column of another table. -/
structure JoinColumn where
  name : Option String := none
  columnDefinition : Option String := none
  table : Option String := none
  referencedColumnName : Option String := none
  unique : Option Bool := none
  nullable : Option Bool := none
  insertable : Option Bool := none
  updatable : Option Bool := none
  deriving DecidableEq, Repr, Inhabited

namespace JoinColumn

/-- A join column of which only the name is declared. -/
def named (name : String) : JoinColumn := { name := some name }

def entries (c : JoinColumn) : List (String × Entry) :=
  [("name", .string c.name),
   ("columnDefinition", .string c.columnDefinition),
   ("table", .string c.table),
   ("referencedColumnName", .string c.referencedColumnName),
   ("unique", .bool c.unique),
   ("nullable", .bool c.nullable),
   ("insertable", .bool c.insertable),
   ("updatable", .bool c.updatable)]

def annotation (c : JoinColumn) (site : Option Site) : Annotation :=
  .ofEntries .joinColumn site c.entries

/-- The join columns as they are nested in another annotation. -/
def nested (cs : List JoinColumn) : List Annotation := cs.map fun c => c.annotation none

/-- The one annotation for a list of join columns. -/
def listAnnotation (cs : List JoinColumn) (site : Option Site) : Option Annotation :=
  Annotation.ofItems .joinColumns annotation site cs

end JoinColumn

/-- The column that keeps the order of a list. -/
structure OrderColumn where
  name : Option String := none
  columnDefinition : Option String := none
  nullable : Option Bool := none
  insertable : Option Bool := none
  updatable : Option Bool := none
  deriving DecidableEq, Repr, Inhabited

namespace OrderColumn

def entries (c : OrderColumn) : List (String × Entry) :=
  [("name", .string c.name),
   ("columnDefinition", .string c.columnDefinition),
   ("nullable", .bool c.nullable),
   ("insertable", .bool c.insertable),
   ("updatable", .bool c.updatable)]

def annotation (c : OrderColumn) (site : Option Site) : Annotation :=
  .ofEntries .orderColumn site c.entries

end OrderColumn

/-- A primary key column that refers to the primary key of another table. -/
structure PrimaryKeyJoinColumn where
  name : Option String := none
  referencedColumnName : Option String := none
  columnDefinition : Option String := none
  deriving DecidableEq, Repr, Inhabited

namespace PrimaryKeyJoinColumn

def entries (c : PrimaryKeyJoinColumn) : List (String × Entry) :=
  [("name", .string c.name),
   ("referencedColumnName", .string c.referencedColumnName),
   ("columnDefinition", .string c.columnDefinition)]

def annotation (c : PrimaryKeyJoinColumn) (site : Option Site) : Annotation :=
  .ofEntries .primaryKeyJoinColumn site c.entries

/-- The one annotation for a list of primary key join columns. -/
def listAnnotation (cs : List PrimaryKeyJoinColumn) (site : Option Site) : Option Annotation :=
  Annotation.ofItems .primaryKeyJoinColumns annotation site cs

end PrimaryKeyJoinColumn

end MappingMetadata.Declaration
