/-!
# Kinds of annotations

Every annotation has a kind. Nine kinds come in pairs: a scalar kind and the plural kind that
wraps several of them. `member_eq_some_iff` says that the two directions undo each other.
-/

namespace MappingMetadata

/-- What an annotation states. -/
inductive Kind where
  | column | orderColumn | joinColumn | joinColumns | primaryKeyJoinColumn
  | primaryKeyJoinColumns | joinTable | collectionTable | uniqueConstraint | attributeOverride
  | attributeOverrides | associationOverride | associationOverrides | lob | temporal | enumerated
  | access | idClass | transient | excludeDefaultListeners | excludeSuperclassListeners
  | entityListeners | prePersist | preRemove | preUpdate | postPersist | postUpdate | postRemove
  | postLoad | oneToOne | oneToMany | manyToOne | manyToMany | tableGenerator | tableGenerators
  | sequenceGenerator | sequenceGenerators | namedQuery | namedQueries | namedNativeQuery
  | namedNativeQueries | queryHint | sqlResultSetMapping | sqlResultSetMappings | entityResult
  | fieldResult | columnResult
  deriving DecidableEq, Repr, Inhabited

namespace Kind

/-- All kinds, in declaration order. -/
def all : List Kind :=
  [.column, .orderColumn, .joinColumn, .joinColumns, .primaryKeyJoinColumn,
   .primaryKeyJoinColumns, .joinTable, .collectionTable, .uniqueConstraint, .attributeOverride,
   .attributeOverrides, .associationOverride, .associationOverrides, .lob, .temporal, .enumerated,
   .access, .idClass, .transient, .excludeDefaultListeners, .excludeSuperclassListeners,
   .entityListeners, .prePersist, .preRemove, .preUpdate, .postPersist, .postUpdate, .postRemove,
   .postLoad, .oneToOne, .oneToMany, .manyToOne, .manyToMany, .tableGenerator, .tableGenerators,
   .sequenceGenerator, .sequenceGenerators, .namedQuery, .namedQueries, .namedNativeQuery,
   .namedNativeQueries, .queryHint, .sqlResultSetMapping, .sqlResultSetMappings, .entityResult,
   .fieldResult, .columnResult]

/-- The name under which a kind is written. -/
def name : Kind → String
  | .column => "Column"
  | .orderColumn => "OrderColumn"
  | .joinColumn => "JoinColumn"
  | .joinColumns => "JoinColumns"
  | .primaryKeyJoinColumn => "PrimaryKeyJoinColumn"
  | .primaryKeyJoinColumns => "PrimaryKeyJoinColumns"
  | .joinTable => "JoinTable"
  | .collectionTable => "CollectionTable"
  | .uniqueConstraint => "UniqueConstraint"
  | .attributeOverride => "AttributeOverride"
  | .attributeOverrides => "AttributeOverrides"
  | .associationOverride => "AssociationOverride"
  | .associationOverrides => "AssociationOverrides"
  | .lob => "Lob"
  | .temporal => "Temporal"
  | .enumerated => "Enumerated"
  | .access => "Access"
  | .idClass => "IdClass"
  | .transient => "Transient"
  | .excludeDefaultListeners => "ExcludeDefaultListeners"
  | .excludeSuperclassListeners => "ExcludeSuperclassListeners"
  | .entityListeners => "EntityListeners"
  | .prePersist => "PrePersist"
  | .preRemove => "PreRemove"
  | .preUpdate => "PreUpdate"
  | .postPersist => "PostPersist"
  | .postUpdate => "PostUpdate"
  | .postRemove => "PostRemove"
  | .postLoad => "PostLoad"
  | .oneToOne => "OneToOne"
  | .oneToMany => "OneToMany"
  | .manyToOne => "ManyToOne"
  | .manyToMany => "ManyToMany"
  | .tableGenerator => "TableGenerator"
  | .tableGenerators => "TableGenerators"
  | .sequenceGenerator => "SequenceGenerator"
  | .sequenceGenerators => "SequenceGenerators"
  | .namedQuery => "NamedQuery"
  | .namedQueries => "NamedQueries"
  | .namedNativeQuery => "NamedNativeQuery"
  | .namedNativeQueries => "NamedNativeQueries"
  | .queryHint => "QueryHint"
  | .sqlResultSetMapping => "SqlResultSetMapping"
  | .sqlResultSetMappings => "SqlResultSetMappings"
  | .entityResult => "EntityResult"
  | .fieldResult => "FieldResult"
  | .columnResult => "ColumnResult"

/-- The kind that wraps several annotations of this kind. -/
def plural : Kind → Option Kind
  | .joinColumn => some .joinColumns
  | .primaryKeyJoinColumn => some .primaryKeyJoinColumns
  | .attributeOverride => some .attributeOverrides
  | .associationOverride => some .associationOverrides
  | .tableGenerator => some .tableGenerators
  | .sequenceGenerator => some .sequenceGenerators
  | .namedQuery => some .namedQueries
  | .namedNativeQuery => some .namedNativeQueries
  | .sqlResultSetMapping => some .sqlResultSetMappings
  | _ => none

/-- The kind of the annotations that this kind wraps. -/
def member : Kind → Option Kind
  | .joinColumns => some .joinColumn
  | .primaryKeyJoinColumns => some .primaryKeyJoinColumn
  | .attributeOverrides => some .attributeOverride
  | .associationOverrides => some .associationOverride
  | .tableGenerators => some .tableGenerator
  | .sequenceGenerators => some .sequenceGenerator
  | .namedQueries => some .namedQuery
  | .namedNativeQueries => some .namedNativeQuery
  | .sqlResultSetMappings => some .sqlResultSetMapping
  | _ => none

/-- The kinds that an annotation of this kind takes the place of on its site: its own, the one
that wraps it or that it wraps, and for an association every kind of association. -/
def rivals : Kind → List Kind
  | .oneToOne | .oneToMany | .manyToOne | .manyToMany =>
    [.oneToOne, .oneToMany, .manyToOne, .manyToMany]
  | k => (k :: k.plural.toList) ++ k.member.toList

/-- Does this kind wrap others? -/
def isPlural (k : Kind) : Bool := k.member.isSome

theorem mem_all (k : Kind) : k ∈ all := by cases k <;> decide

theorem member_eq_some_iff (p k : Kind) : p.member = some k ↔ k.plural = some p := by
  constructor
  · cases p <;> simp [member] <;> rintro rfl <;> rfl
  · cases k <;> simp [plural] <;> rintro rfl <;> rfl

end Kind

end MappingMetadata
