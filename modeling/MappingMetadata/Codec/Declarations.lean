import MappingMetadata.Codec.Record
import MappingMetadata.Declaration.Document

/-!
# The written form of declarations

The members of every record that a mapping document or a settings file may hold, in the order in
which they are written. All members are written, absent ones as null; what may be missing when a
record is read, and what it is then, is said member by member.
-/

namespace MappingMetadata

/-! ## Closed vocabularies -/

def Access.codec : Codec Access := .choice Access.values Access.name

def Temporal.codec : Codec Temporal := .choice Temporal.values Temporal.name

def EnumForm.codec : Codec EnumForm := .choice EnumForm.values EnumForm.name

def LockMode.codec : Codec LockMode := .choice LockMode.values LockMode.name

def Association.codec : Codec Association := .choice Association.values Association.name

def Cascade.codec : Codec Cascade := .choice Cascade.values Cascade.name

/-! ## Defaults and settings -/

def Defaults.members : Fields Defaults :=
  Fields.iso (
    .optional "package" .text <|
    .optional "schema" .text <|
    .optional "catalog" .text <|
    .optional "access" Access.codec <|
    .optional "cascadePersist" .bool <| .done)
    (fun (a, b, c, d, e, _) => ⟨a, b, c, d, e⟩)
    (fun r => (r.package, r.schema, r.catalog, r.access, r.cascadePersist, ()))

def Defaults.codec : Codec Defaults := .record Defaults.members

def Settings.members : Fields Settings :=
  Fields.iso (
    .member "defaults" Defaults.codec (some {}) <|
    .flag "strictClassResolution" false <|
    .list "knownClasses" .text <|
    .flag "dedupeDocumentOverrides" true <| .done)
    (fun (a, b, c, d, _) => ⟨a, b, c, d⟩)
    (fun r => (r.defaults, r.strictClasses, r.knownClasses, r.dedupeOverrides, ()))

def Settings.codec : Codec Settings := .record Settings.members

namespace Declaration

/-! ## Columns and tables -/

def Column.members : Fields Column :=
  Fields.iso (
    .optional "name" .text <|
    .optional "columnDefinition" .text <|
    .optional "table" .text <|
    .optional "unique" .bool <|
    .optional "nullable" .bool <|
    .optional "insertable" .bool <|
    .optional "updatable" .bool <|
    .optional "length" .int64 <|
    .optional "precision" .int64 <|
    .optional "scale" .int64 <| .done)
    (fun (a, b, c, d, e, f, g, h, i, j, _) => ⟨a, b, c, d, e, f, g, h, i, j⟩)
    (fun r => (r.name, r.columnDefinition, r.table, r.unique, r.nullable, r.insertable,
      r.updatable, r.length, r.precision, r.scale, ()))

def Column.codec : Codec Column := .record Column.members

def JoinColumn.members : Fields JoinColumn :=
  Fields.iso (
    .optional "name" .text <|
    .optional "columnDefinition" .text <|
    .optional "table" .text <|
    .optional "referencedColumnName" .text <|
    .optional "unique" .bool <|
    .optional "nullable" .bool <|
    .optional "insertable" .bool <|
    .optional "updatable" .bool <| .done)
    (fun (a, b, c, d, e, f, g, h, _) => ⟨a, b, c, d, e, f, g, h⟩)
    (fun r => (r.name, r.columnDefinition, r.table, r.referencedColumnName, r.unique, r.nullable,
      r.insertable, r.updatable, ()))

def JoinColumn.codec : Codec JoinColumn := .record JoinColumn.members

def OrderColumn.members : Fields OrderColumn :=
  Fields.iso (
    .optional "name" .text <|
    .optional "columnDefinition" .text <|
    .optional "nullable" .bool <|
    .optional "insertable" .bool <|
    .optional "updatable" .bool <| .done)
    (fun (a, b, c, d, e, _) => ⟨a, b, c, d, e⟩)
    (fun r => (r.name, r.columnDefinition, r.nullable, r.insertable, r.updatable, ()))

def OrderColumn.codec : Codec OrderColumn := .record OrderColumn.members

def PrimaryKeyJoinColumn.members : Fields PrimaryKeyJoinColumn :=
  Fields.iso (
    .optional "name" .text <|
    .optional "referencedColumnName" .text <|
    .optional "columnDefinition" .text <| .done)
    (fun (a, b, c, _) => ⟨a, b, c⟩)
    (fun r => (r.name, r.referencedColumnName, r.columnDefinition, ()))

def PrimaryKeyJoinColumn.codec : Codec PrimaryKeyJoinColumn := .record PrimaryKeyJoinColumn.members

def UniqueConstraint.members : Fields UniqueConstraint :=
  Fields.iso (
    .optional "name" .text <|
    .list "columnNames" .text <| .done)
    (fun (a, b, _) => ⟨a, b⟩)
    (fun r => (r.name, r.columnNames, ()))

def UniqueConstraint.codec : Codec UniqueConstraint := .record UniqueConstraint.members

def JoinTable.members : Fields JoinTable :=
  Fields.iso (
    .optional "name" .text <|
    .optional "catalog" .text <|
    .optional "schema" .text <|
    .list "joinColumns" JoinColumn.codec <|
    .list "inverseJoinColumns" JoinColumn.codec <|
    .list "uniqueConstraints" UniqueConstraint.codec <| .done)
    (fun (a, b, c, d, e, f, _) => ⟨a, b, c, d, e, f⟩)
    (fun r => (r.name, r.catalog, r.schema, r.joinColumns, r.inverseJoinColumns,
      r.uniqueConstraints, ()))

def JoinTable.codec : Codec JoinTable := .record JoinTable.members

def CollectionTable.members : Fields CollectionTable :=
  Fields.iso (
    .optional "name" .text <|
    .optional "catalog" .text <|
    .optional "schema" .text <|
    .list "joinColumns" JoinColumn.codec <|
    .list "uniqueConstraints" UniqueConstraint.codec <| .done)
    (fun (a, b, c, d, e, _) => ⟨a, b, c, d, e⟩)
    (fun r => (r.name, r.catalog, r.schema, r.joinColumns, r.uniqueConstraints, ()))

def CollectionTable.codec : Codec CollectionTable := .record CollectionTable.members

/-! ## Overrides -/

def AttributeOverride.members : Fields AttributeOverride :=
  Fields.iso (
    .required "name" .text <|
    .optional "column" Column.codec <| .done)
    (fun (a, b, _) => ⟨a, b⟩)
    (fun r => (r.name, r.column, ()))

def AttributeOverride.codec : Codec AttributeOverride := .record AttributeOverride.members

def AssociationOverride.members : Fields AssociationOverride :=
  Fields.iso (
    .required "name" .text <|
    .list "joinColumns" JoinColumn.codec <|
    .optional "joinTable" JoinTable.codec <| .done)
    (fun (a, b, c, _) => ⟨a, b, c⟩)
    (fun r => (r.name, r.joinColumns, r.joinTable, ()))

def AssociationOverride.codec : Codec AssociationOverride := .record AssociationOverride.members

/-! ## Generators and queries -/

def TableGenerator.members : Fields TableGenerator :=
  Fields.iso (
    .optional "name" .text <|
    .optional "catalog" .text <|
    .optional "schema" .text <|
    .optional "table" .text <|
    .optional "pkColumnName" .text <|
    .optional "valueColumnName" .text <|
    .optional "pkColumnValue" .text <|
    .optional "initialValue" .int64 <|
    .optional "allocationSize" .int64 <|
    .list "uniqueConstraints" UniqueConstraint.codec <| .done)
    (fun (a, b, c, d, e, f, g, h, i, j, _) => ⟨a, b, c, d, e, f, g, h, i, j⟩)
    (fun r => (r.name, r.catalog, r.schema, r.table, r.pkColumnName, r.valueColumnName,
      r.pkColumnValue, r.initialValue, r.allocationSize, r.uniqueConstraints, ()))

def TableGenerator.codec : Codec TableGenerator := .record TableGenerator.members

def SequenceGenerator.members : Fields SequenceGenerator :=
  Fields.iso (
    .optional "name" .text <|
    .optional "catalog" .text <|
    .optional "schema" .text <|
    .optional "sequenceName" .text <|
    .optional "initialValue" .int64 <|
    .optional "allocationSize" .int64 <| .done)
    (fun (a, b, c, d, e, f, _) => ⟨a, b, c, d, e, f⟩)
    (fun r => (r.name, r.catalog, r.schema, r.sequenceName, r.initialValue, r.allocationSize, ()))

def SequenceGenerator.codec : Codec SequenceGenerator := .record SequenceGenerator.members

def QueryHint.members : Fields QueryHint :=
  Fields.iso (
    .optional "name" .text <|
    .optional "value" .text <| .done)
    (fun (a, b, _) => ⟨a, b⟩)
    (fun r => (r.name, r.value, ()))

def QueryHint.codec : Codec QueryHint := .record QueryHint.members

def NamedQuery.members : Fields NamedQuery :=
  Fields.iso (
    .optional "name" .text <|
    .optional "query" .text <|
    .optional "lockMode" LockMode.codec <|
    .list "hints" QueryHint.codec <| .done)
    (fun (a, b, c, d, _) => ⟨a, b, c, d⟩)
    (fun r => (r.name, r.query, r.lockMode, r.hints, ()))

def NamedQuery.codec : Codec NamedQuery := .record NamedQuery.members

def NamedNativeQuery.members : Fields NamedNativeQuery :=
  Fields.iso (
    .optional "name" .text <|
    .optional "query" .text <|
    .optional "resultSetMapping" .text <|
    .optional "resultClass" .text <|
    .list "hints" QueryHint.codec <| .done)
    (fun (a, b, c, d, e, _) => ⟨a, b, c, d, e⟩)
    (fun r => (r.name, r.query, r.resultSetMapping, r.resultClass, r.hints, ()))

def NamedNativeQuery.codec : Codec NamedNativeQuery := .record NamedNativeQuery.members

def FieldResult.members : Fields FieldResult :=
  Fields.iso (
    .optional "name" .text <|
    .optional "column" .text <| .done)
    (fun (a, b, _) => ⟨a, b⟩)
    (fun r => (r.name, r.column, ()))

def FieldResult.codec : Codec FieldResult := .record FieldResult.members

def EntityResult.members : Fields EntityResult :=
  Fields.iso (
    .optional "entityClass" .text <|
    .optional "discriminatorColumn" .text <|
    .list "fields" FieldResult.codec <| .done)
    (fun (a, b, c, _) => ⟨a, b, c⟩)
    (fun r => (r.entityClass, r.discriminatorColumn, r.fields, ()))

def EntityResult.codec : Codec EntityResult := .record EntityResult.members

def ColumnResult.members : Fields ColumnResult :=
  Fields.iso (
    .optional "name" .text <| .done)
    (fun (a, _) => ⟨a⟩)
    (fun r => (r.name, ()))

def ColumnResult.codec : Codec ColumnResult := .record ColumnResult.members

def ResultSetMapping.members : Fields ResultSetMapping :=
  Fields.iso (
    .optional "name" .text <|
    .list "entities" EntityResult.codec <|
    .list "columns" ColumnResult.codec <| .done)
    (fun (a, b, c, _) => ⟨a, b, c⟩)
    (fun r => (r.name, r.entities, r.columns, ()))

def ResultSetMapping.codec : Codec ResultSetMapping := .record ResultSetMapping.members

def GlobalDeclarations.members : Fields GlobalDeclarations :=
  Fields.iso (
    .list "tableGenerators" TableGenerator.codec <|
    .list "sequenceGenerators" SequenceGenerator.codec <|
    .list "namedQueries" NamedQuery.codec <|
    .list "namedNativeQueries" NamedNativeQuery.codec <|
    .list "sqlResultSetMappings" ResultSetMapping.codec <| .done)
    (fun (a, b, c, d, e, _) => ⟨a, b, c, d, e⟩)
    (fun r => (r.tableGenerators, r.sequenceGenerators, r.namedQueries, r.namedNativeQueries,
      r.sqlResultSetMappings, ()))

def GlobalDeclarations.codec : Codec GlobalDeclarations := .record GlobalDeclarations.members

/-! ## Entities -/

def BasicAttribute.members : Fields BasicAttribute :=
  Fields.iso (
    .required "name" .text <|
    .optional "column" Column.codec <|
    .flag "lob" false <|
    .optional "temporal" Temporal.codec <|
    .optional "enumerated" EnumForm.codec <| .done)
    (fun (a, b, c, d, e, _) => ⟨a, b, c, d, e⟩)
    (fun r => (r.name, r.column, r.lob, r.temporal, r.enumerated, ()))

def BasicAttribute.codec : Codec BasicAttribute := .record BasicAttribute.members

def AssociationAttribute.members : Fields AssociationAttribute :=
  Fields.iso (
    .required "name" .text <|
    .list "joinColumns" JoinColumn.codec <|
    .optional "joinTable" JoinTable.codec <|
    .optional "collectionTable" CollectionTable.codec <|
    .optional "orderColumn" OrderColumn.codec <|
    .list "attributeOverrides" AttributeOverride.codec <|
    .list "associationOverrides" AssociationOverride.codec <|
    .optional "associationType" Association.codec <|
    .optional "targetEntity" .text <|
    .list "cascade" Cascade.codec <| .done)
    (fun (a, b, c, d, e, f, g, h, i, j, _) => ⟨a, b, c, d, e, f, g, h, i, j⟩)
    (fun r => (r.name, r.joinColumns, r.joinTable, r.collectionTable, r.orderColumn,
      r.attributeOverrides, r.associationOverrides, r.associationType, r.targetEntity, r.cascade,
      ()))

def AssociationAttribute.codec : Codec AssociationAttribute := .record AssociationAttribute.members

def Callbacks.members : Fields Callbacks :=
  Fields.iso (
    .optional "prePersist" .text <|
    .optional "preRemove" .text <|
    .optional "preUpdate" .text <|
    .optional "postPersist" .text <|
    .optional "postUpdate" .text <|
    .optional "postRemove" .text <|
    .optional "postLoad" .text <| .done)
    (fun (a, b, c, d, e, f, g, _) => ⟨a, b, c, d, e, f, g⟩)
    (fun r => (r.prePersist, r.preRemove, r.preUpdate, r.postPersist, r.postUpdate, r.postRemove,
      r.postLoad, ()))

def Callbacks.codec : Codec Callbacks := .record Callbacks.members

/-- A listener has the members of its callbacks among its own. -/
def Listener.codec : Codec Listener :=
  .iso (.merged (.required "className" .text <| .done) Callbacks.members)
    (fun ((a, _), callbacks) => ⟨a, callbacks⟩)
    (fun r => ((r.className, ()), r.callbacks))

/-- An entity has the members of its callbacks among its own. -/
def Entity.codec : Codec Entity :=
  .iso (.merged (
    .required "className" .text <|
    .flag "metadataComplete" false <|
    .optional "access" Access.codec <|
    .flag "excludeDefaultListeners" false <|
    .flag "excludeSuperclassListeners" false <|
    .optional "idClass" .text <|
    .list "attributeOverrides" AttributeOverride.codec <|
    .list "associationOverrides" AssociationOverride.codec <|
    .list "primaryKeyJoinColumns" PrimaryKeyJoinColumn.codec <|
    .list "basicAttributes" BasicAttribute.codec <|
    .list "associations" AssociationAttribute.codec <|
    .list "transientAttributes" .text <|
    .list "entityListeners" Listener.codec <| .done) Callbacks.members)
    (fun ((a, b, c, d, e, f, g, h, i, j, k, l, m, _), callbacks) =>
      ⟨a, b, c, d, e, f, g, h, i, j, k, l, m, callbacks⟩)
    (fun r => ((r.className, r.metadataComplete, r.access, r.excludeDefaultListeners,
      r.excludeSuperclassListeners, r.idClass, r.attributeOverrides, r.associationOverrides,
      r.primaryKeyJoinColumns, r.basicAttributes, r.associations, r.transientAttributes,
      r.entityListeners, ()), r.callbacks))

/-- A document has the members of its global declarations among its own. -/
def Document.codec : Codec Document :=
  .iso (.merged (
    .member "defaults" Defaults.codec (some {}) <|
    .list "entities" Entity.codec <| .done) GlobalDeclarations.members)
    (fun ((a, b, _), globals) => ⟨a, b, globals⟩)
    (fun r => ((r.defaults, r.entities, ()), r.globals))

end Declaration

end MappingMetadata
