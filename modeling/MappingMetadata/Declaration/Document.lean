import MappingMetadata.Declaration.Attribute
import MappingMetadata.Declaration.Generator
import MappingMetadata.Declaration.Query

/-!
# Entities and mapping documents

What a document declares of one entity, mapped superclass or embeddable class: its own switches,
its overrides, its attributes, its listeners and its lifecycle callbacks.

A document declares defaults, entities, and things that belong to no class: generators, queries
and result-set mappings.
-/

namespace MappingMetadata.Declaration

/-! ## Entities -/

/-- The methods to be called at the events in the life of an entity. -/
structure Callbacks where
  prePersist : Option String := none
  preRemove : Option String := none
  preUpdate : Option String := none
  postPersist : Option String := none
  postUpdate : Option String := none
  postRemove : Option String := none
  postLoad : Option String := none
  deriving DecidableEq, Repr, Inhabited

namespace Callbacks

/-- The method of each event, declared or not, in the order of the events. -/
def methods (c : Callbacks) : List (Kind × Option String) :=
  [(.prePersist, c.prePersist),
   (.preRemove, c.preRemove),
   (.preUpdate, c.preUpdate),
   (.postPersist, c.postPersist),
   (.postUpdate, c.postUpdate),
   (.postRemove, c.postRemove),
   (.postLoad, c.postLoad)]

/-- The declared methods; an empty name declares nothing. -/
def declared (c : Callbacks) : List (Kind × String) :=
  c.methods.filterMap fun p => (p.2.filter fun m => !m.isEmpty).map fun m => (p.1, m)

end Callbacks

/-- A class whose methods are called at the events of an entity. -/
structure Listener where
  className : String
  callbacks : Callbacks := {}
  deriving DecidableEq, Repr, Inhabited

/-- One declared class. -/
structure Entity where
  className : String
  metadataComplete : Bool := false
  access : Option Access := none
  excludeDefaultListeners : Bool := false
  excludeSuperclassListeners : Bool := false
  idClass : Option String := none
  attributeOverrides : List AttributeOverride := []
  associationOverrides : List AssociationOverride := []
  primaryKeyJoinColumns : List PrimaryKeyJoinColumn := []
  basicAttributes : List BasicAttribute := []
  associations : List AssociationAttribute := []
  transientAttributes : List String := []
  entityListeners : List Listener := []
  callbacks : Callbacks := {}
  deriving DecidableEq, Repr, Inhabited

/-! ## Documents -/

/-- The declarations of a document that belong to no class. -/
structure GlobalDeclarations where
  tableGenerators : List TableGenerator := []
  sequenceGenerators : List SequenceGenerator := []
  namedQueries : List NamedQuery := []
  namedNativeQueries : List NamedNativeQuery := []
  sqlResultSetMappings : List ResultSetMapping := []
  deriving DecidableEq, Repr, Inhabited

/-- Is nothing declared? -/
def GlobalDeclarations.isEmpty (g : GlobalDeclarations) : Bool :=
  g.tableGenerators.isEmpty && g.sequenceGenerators.isEmpty && g.namedQueries.isEmpty &&
    g.namedNativeQueries.isEmpty && g.sqlResultSetMappings.isEmpty

/-- A mapping document. -/
structure Document where
  defaults : Defaults := {}
  entities : List Entity := []
  globals : GlobalDeclarations := {}
  deriving DecidableEq, Repr, Inhabited

end MappingMetadata.Declaration
