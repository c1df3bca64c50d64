import MappingMetadata.Choice
import MappingMetadata.ClassPath
import MappingMetadata.Declaration.Override

/-!
# Attributes of entities

Declarations for the basic attributes of an entity and for its associations, and the annotations
that state a precision, an enum storage or an association.
-/

namespace MappingMetadata

/-- The annotation that states a temporal precision. -/
def Temporal.annotation (t : Temporal) (site : Option Site) : Annotation :=
  .ofEntries .temporal site [("value", .constant "TemporalType" (some t.name))]

/-- The annotation that states how an enum is stored. -/
def EnumForm.annotation (e : EnumForm) (site : Option Site) : Annotation :=
  .ofEntries .enumerated site [("value", .constant "EnumType" (some e.name))]

/-- The kind of the annotation that states an association. -/
def Association.kind : Association → Kind
  | .oneToOne => .oneToOne
  | .oneToMany => .oneToMany
  | .manyToOne => .manyToOne
  | .manyToMany => .manyToMany

namespace Declaration

/-- An attribute whose value is kept in a column. -/
structure BasicAttribute where
  name : String
  column : Option Column := none
  lob : Bool := false
  temporal : Option Temporal := none
  enumerated : Option EnumForm := none
  deriving DecidableEq, Repr, Inhabited

/-- An attribute that refers to other entities. -/
structure AssociationAttribute where
  name : String
  joinColumns : List JoinColumn := []
  joinTable : Option JoinTable := none
  collectionTable : Option CollectionTable := none
  orderColumn : Option OrderColumn := none
  attributeOverrides : List AttributeOverride := []
  associationOverrides : List AssociationOverride := []
  /-- Needed when a target entity or a cascade is declared. -/
  associationType : Option Association := none
  targetEntity : Option String := none
  cascade : List Cascade := []
  deriving DecidableEq, Repr, Inhabited

namespace AssociationAttribute

/-- The declared cascade; under defaults that cascade, `PERSIST` joins it unless it is covered. -/
def fullCascade (a : AssociationAttribute) (d : Defaults) : List Cascade :=
  if d.cascades && !a.cascade.any (fun c => c = .all || c = .persist) then
    a.cascade ++ [.persist]
  else a.cascade

/-- What the association states, its target entity already looked up. -/
def entries (a : AssociationAttribute) (d : Defaults) (targetEntity : Option String) :
    List (String × Entry) :=
  [("targetEntity", .classRef targetEntity),
   ("cascade", .constants "CascadeType" ((a.fullCascade d).map Cascade.name))]

/-- The annotation that states the association. One without a type states nothing, and then may
declare neither a target entity nor a cascade. -/
def annotation (a : AssociationAttribute) (path : ClassPath) (d : Defaults) (site : Site) :
    Outcome (Option Annotation) :=
  match a.associationType with
  | some type => do
    let targetEntity ← path.resolve? d a.targetEntity "target entity"
    return some (.ofEntries type.kind (some site) (a.entries d targetEntity))
  | none =>
    if a.cascade.isEmpty && a.targetEntity.isNone then .ok none
    else .error (.untypedAssociation a.name)

end AssociationAttribute

end Declaration

end MappingMetadata
