import MappingMetadata.Declaration.Table

/-!
# Overrides

Declarations that replace the column of an attribute, or the join columns and the join table of
an association, of an embedded or inherited class.
-/

namespace MappingMetadata.Declaration

/-- Another column for an attribute. -/
structure AttributeOverride where
  name : String
  column : Option Column := none
  deriving DecidableEq, Repr, Inhabited

namespace AttributeOverride

def entries (o : AttributeOverride) : List (String × Entry) :=
  [("name", .string (some o.name)),
   ("column", .nested (o.column.map fun c => c.annotation none))]

def annotation (o : AttributeOverride) (site : Option Site) : Annotation :=
  .ofEntries .attributeOverride site o.entries

end AttributeOverride

/-- Other join columns or another join table for an association. -/
structure AssociationOverride where
  name : String
  joinColumns : List JoinColumn := []
  joinTable : Option JoinTable := none
  deriving DecidableEq, Repr, Inhabited

namespace AssociationOverride

def entries (o : AssociationOverride) (d : Defaults) : List (String × Entry) :=
  [("name", .string (some o.name)),
   ("joinColumns", .array (JoinColumn.nested o.joinColumns)),
   ("joinTable", .nested (o.joinTable.map fun t => t.annotation d none))]

def annotation (o : AssociationOverride) (d : Defaults) (site : Option Site) : Annotation :=
  .ofEntries .associationOverride site (o.entries d)

end AssociationOverride

end MappingMetadata.Declaration
