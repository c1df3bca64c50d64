import MappingMetadata.Declaration.Document
import MappingMetadata.Globals.Build
import MappingMetadata.Entity.Writes
import MappingMetadata.Proofs.Alike
import MappingMetadata.Proofs.Annotation.Entries
import MappingMetadata.Proofs.Outcome

/-!
# Declarations without empty texts

A writer of documents may give an empty text where nothing is to be said. *Pruning* takes every
optional text that is empty out of a declaration, at whatever depth it stands.

Pruned declarations stand for the same annotations, the classes that they refer to are looked up
with the same results, and global declarations are built alike (`build_pruned`). There is one text
whose mere presence counts: the target entity of an association without a type, which is refused
even when it is empty (`annotation_pruned`, `annotation_of_stray`).
-/

namespace MappingMetadata

/-- A text unless it is empty. -/
def nonempty? (o : Option String) : Option String := o.filter fun s => !s.isEmpty

theorem filter_nonempty? (o : Option String) :
    ((nonempty? o).filter fun s => !s.isEmpty) = o.filter fun s => !s.isEmpty := by
  rw [nonempty?, Option.filter_filter]
  simp only [Bool.and_self]

theorem nonempty?_eq_some_iff {o : Option String} {s : String} :
    nonempty? o = some s ↔ o = some s ∧ s ≠ "" := by
  simp [nonempty?]

@[simp] theorem Entry.value?_string_nonempty? (o : Option String) :
    (Entry.string (nonempty? o)).value? = (Entry.string o).value? := by
  rw [value?, value?, filter_nonempty?]

theorem ClassPath.resolve?_nonempty? (path : ClassPath) (d : Defaults) (o : Option String)
    (role : String) : path.resolve? d (nonempty? o) role = path.resolve? d o role := by
  rw [resolve?, resolve?, filter_nonempty?]

theorem ClassPath.error?_resolve (path : ClassPath) (d : Defaults) (name role : String) :
    Outcome.error? (path.resolve d name role) =
      if (path (d.qualify name)).isSome then none
      else some (.unresolvedClass (d.qualify name) role) := by
  rw [resolve]
  cases path (d.qualify name) <;> rfl

theorem ClassPath.error?_resolve? (path : ClassPath) (d : Defaults) (o : Option String)
    (role : String) : Outcome.error? (path.resolve? d o role) =
      (nonempty? o).bind fun name => Outcome.error? (path.resolve d name role) := by
  unfold resolve? nonempty?
  cases o.filter fun c => !c.isEmpty with
  | none => rfl
  | some c => exact Outcome.error?_map _ _

namespace Declaration

/-! ## Columns -/

def Column.pruned (c : Column) : Column :=
  { c with
    name := nonempty? c.name
    columnDefinition := nonempty? c.columnDefinition
    table := nonempty? c.table }

theorem Column.annotation_pruned (c : Column) (site : Option Site) :
    c.pruned.annotation site = c.annotation site :=
  Annotation.ofEntries_congr (by
    simp only [entries, pruned, Entry.stated_cons, Entry.value?_string_nonempty?])

def JoinColumn.pruned (c : JoinColumn) : JoinColumn :=
  { c with
    name := nonempty? c.name
    columnDefinition := nonempty? c.columnDefinition
    table := nonempty? c.table
    referencedColumnName := nonempty? c.referencedColumnName }

theorem JoinColumn.annotation_pruned (c : JoinColumn) (site : Option Site) :
    c.pruned.annotation site = c.annotation site :=
  Annotation.ofEntries_congr (by
    simp only [entries, pruned, Entry.stated_cons, Entry.value?_string_nonempty?])

theorem JoinColumn.nested_pruned (cs : List JoinColumn) : nested (cs.map pruned) = nested cs := by
  simp [nested, annotation_pruned]

theorem JoinColumn.listAnnotation_pruned (cs : List JoinColumn) (site : Option Site) :
    listAnnotation (cs.map pruned) site = listAnnotation cs site :=
  Annotation.ofItems_map annotation_pruned site cs

def OrderColumn.pruned (c : OrderColumn) : OrderColumn :=
  { c with name := nonempty? c.name, columnDefinition := nonempty? c.columnDefinition }

theorem OrderColumn.annotation_pruned (c : OrderColumn) (site : Option Site) :
    c.pruned.annotation site = c.annotation site :=
  Annotation.ofEntries_congr (by
    simp only [entries, pruned, Entry.stated_cons, Entry.value?_string_nonempty?])

def PrimaryKeyJoinColumn.pruned (c : PrimaryKeyJoinColumn) : PrimaryKeyJoinColumn where
  name := nonempty? c.name
  referencedColumnName := nonempty? c.referencedColumnName
  columnDefinition := nonempty? c.columnDefinition

theorem PrimaryKeyJoinColumn.annotation_pruned (c : PrimaryKeyJoinColumn) (site : Option Site) :
    c.pruned.annotation site = c.annotation site :=
  Annotation.ofEntries_congr (by
    simp only [entries, pruned, Entry.stated_cons, Entry.value?_string_nonempty?])

theorem PrimaryKeyJoinColumn.listAnnotation_pruned (cs : List PrimaryKeyJoinColumn)
    (site : Option Site) : listAnnotation (cs.map pruned) site = listAnnotation cs site :=
  Annotation.ofItems_map annotation_pruned site cs

/-! ## Tables -/

def UniqueConstraint.pruned (c : UniqueConstraint) : UniqueConstraint :=
  { c with name := nonempty? c.name }

theorem UniqueConstraint.annotation_pruned (c : UniqueConstraint) :
    c.pruned.annotation = c.annotation :=
  Annotation.ofEntries_congr (by
    simp only [entries, pruned, Entry.stated_cons, Entry.value?_string_nonempty?])

theorem UniqueConstraint.annotations_pruned (cs : List UniqueConstraint) :
    (cs.map pruned).map UniqueConstraint.annotation = cs.map UniqueConstraint.annotation := by
  simp [UniqueConstraint.annotation_pruned]

theorem orDefault_nonempty? (declared fallback : Option String) :
    orDefault (nonempty? declared) fallback = orDefault declared fallback := by
  rw [orDefault, orDefault, filter_nonempty?]

def JoinTable.pruned (t : JoinTable) : JoinTable where
  name := nonempty? t.name
  catalog := nonempty? t.catalog
  schema := nonempty? t.schema
  joinColumns := t.joinColumns.map JoinColumn.pruned
  inverseJoinColumns := t.inverseJoinColumns.map JoinColumn.pruned
  uniqueConstraints := t.uniqueConstraints.map UniqueConstraint.pruned

theorem JoinTable.annotation_pruned (t : JoinTable) (d : Defaults) (site : Option Site) :
    t.pruned.annotation d site = t.annotation d site :=
  Annotation.ofEntries_congr (by
    simp only [entries, pruned, orDefault_nonempty?, JoinColumn.nested_pruned,
      UniqueConstraint.annotations_pruned, Entry.stated_cons, Entry.value?_string_nonempty?])

def CollectionTable.pruned (t : CollectionTable) : CollectionTable where
  name := nonempty? t.name
  catalog := nonempty? t.catalog
  schema := nonempty? t.schema
  joinColumns := t.joinColumns.map JoinColumn.pruned
  uniqueConstraints := t.uniqueConstraints.map UniqueConstraint.pruned

theorem CollectionTable.annotation_pruned (t : CollectionTable) (d : Defaults)
    (site : Option Site) : t.pruned.annotation d site = t.annotation d site :=
  Annotation.ofEntries_congr (by
    simp only [entries, pruned, orDefault_nonempty?, JoinColumn.nested_pruned,
      UniqueConstraint.annotations_pruned, Entry.stated_cons, Entry.value?_string_nonempty?])

/-! ## Overrides -/

def AttributeOverride.pruned (o : AttributeOverride) : AttributeOverride :=
  { o with column := o.column.map Column.pruned }

theorem AttributeOverride.annotation_pruned (o : AttributeOverride) (site : Option Site) :
    o.pruned.annotation site = o.annotation site := by
  have hcolumn : (o.column.map Column.pruned).map (fun c => c.annotation none) =
      o.column.map fun c => c.annotation none := by
    simp [Function.comp_def, Column.annotation_pruned]
  rw [AttributeOverride.annotation, entries, AttributeOverride.annotation, entries, ← hcolumn,
    pruned]

def AssociationOverride.pruned (o : AssociationOverride) : AssociationOverride :=
  { o with
    joinColumns := o.joinColumns.map JoinColumn.pruned
    joinTable := o.joinTable.map JoinTable.pruned }

theorem AssociationOverride.annotation_pruned (o : AssociationOverride) (d : Defaults)
    (site : Option Site) : o.pruned.annotation d site = o.annotation d site := by
  have htable : (o.joinTable.map JoinTable.pruned).map (fun t => t.annotation d none) =
      o.joinTable.map fun t => t.annotation d none := by
    simp [Function.comp_def, JoinTable.annotation_pruned]
  rw [AssociationOverride.annotation, entries, AssociationOverride.annotation, entries, ← htable,
    ← JoinColumn.nested_pruned o.joinColumns, pruned]

/-! ## Attributes -/

def BasicAttribute.pruned (a : BasicAttribute) : BasicAttribute :=
  { a with column := a.column.map Column.pruned }

theorem BasicAttribute.writes_pruned (a : BasicAttribute) (site : Site) :
    a.pruned.writes site = a.writes site := by
  have hcolumn : (a.column.map Column.pruned).map (fun c => c.annotation (some site)) =
      a.column.map fun c => c.annotation (some site) := by
    simp [Function.comp_def, Column.annotation_pruned]
  rw [writes, writes, ← hcolumn, pruned]

namespace AssociationAttribute

def pruned (a : AssociationAttribute) : AssociationAttribute :=
  { a with
    joinColumns := a.joinColumns.map JoinColumn.pruned
    joinTable := a.joinTable.map JoinTable.pruned
    collectionTable := a.collectionTable.map CollectionTable.pruned
    orderColumn := a.orderColumn.map OrderColumn.pruned
    attributeOverrides := a.attributeOverrides.map AttributeOverride.pruned
    associationOverrides := a.associationOverrides.map AssociationOverride.pruned
    targetEntity := nonempty? a.targetEntity }

/-- An association that states nothing, but has an empty target entity. -/
def Stray (a : AssociationAttribute) : Prop :=
  a.associationType = none ∧ a.cascade = [] ∧ a.targetEntity = some ""

instance (a : AssociationAttribute) : Decidable a.Stray :=
  inferInstanceAs (Decidable (_ ∧ _ ∧ _))

theorem annotation_of_stray {a : AssociationAttribute} (h : a.Stray) (path : ClassPath)
    (d : Defaults) (site : Site) :
    a.annotation path d site = .error (.untypedAssociation a.name) := by
  obtain ⟨htype, hcascade, htarget⟩ := h
  simp [AssociationAttribute.annotation, htype, hcascade, htarget]

/-- An association states the same without its empty texts, if it has a type or a cascade or no
empty target entity. -/
theorem annotation_pruned {a : AssociationAttribute} (h : ¬ a.Stray) (path : ClassPath)
    (d : Defaults) (site : Site) :
    a.pruned.annotation path d site = a.annotation path d site := by
  cases htype : a.associationType with
  | some type =>
    simp only [AssociationAttribute.annotation, pruned, htype, ClassPath.resolve?_nonempty?]
    rfl
  | none =>
    have hsame : (a.cascade.isEmpty && (nonempty? a.targetEntity).isNone) =
        (a.cascade.isEmpty && a.targetEntity.isNone) := by
      cases hcascade : a.cascade with
      | cons c cs => rfl
      | nil =>
        cases htarget : a.targetEntity with
        | none => rfl
        | some c =>
          have hc : c ≠ "" := fun hc => h ⟨htype, hcascade, by rw [htarget, hc]⟩
          simp [nonempty?, Option.filter, hc]
    simp only [AssociationAttribute.annotation, pruned, htype, hsame]

end AssociationAttribute

/-! ## Classes -/

def Callbacks.pruned (c : Callbacks) : Callbacks where
  prePersist := nonempty? c.prePersist
  preRemove := nonempty? c.preRemove
  preUpdate := nonempty? c.preUpdate
  postPersist := nonempty? c.postPersist
  postUpdate := nonempty? c.postUpdate
  postRemove := nonempty? c.postRemove
  postLoad := nonempty? c.postLoad

theorem Callbacks.writes_pruned (c : Callbacks) (className : String) :
    c.pruned.writes className = c.writes className := by
  have hmethods : c.pruned.methods = c.methods.map fun p => (p.1, nonempty? p.2) := rfl
  have hdeclared : c.pruned.declared = c.declared := by
    rw [declared, hmethods, List.filterMap_map]
    simp only [Function.comp_def, filter_nonempty?]
    rfl
  rw [writes, hdeclared, writes]

def Listener.pruned (l : Listener) : Listener := { l with callbacks := l.callbacks.pruned }

def Entity.pruned (e : Entity) : Entity :=
  { e with
    idClass := nonempty? e.idClass
    attributeOverrides := e.attributeOverrides.map AttributeOverride.pruned
    associationOverrides := e.associationOverrides.map AssociationOverride.pruned
    primaryKeyJoinColumns := e.primaryKeyJoinColumns.map PrimaryKeyJoinColumn.pruned
    basicAttributes := e.basicAttributes.map BasicAttribute.pruned
    associations := e.associations.map AssociationAttribute.pruned
    entityListeners := e.entityListeners.map Listener.pruned
    callbacks := e.callbacks.pruned }

/-! ## Global declarations -/

def TableGenerator.pruned (g : TableGenerator) : TableGenerator :=
  { g with
    name := nonempty? g.name
    catalog := nonempty? g.catalog
    schema := nonempty? g.schema
    table := nonempty? g.table
    pkColumnName := nonempty? g.pkColumnName
    valueColumnName := nonempty? g.valueColumnName
    pkColumnValue := nonempty? g.pkColumnValue
    uniqueConstraints := g.uniqueConstraints.map UniqueConstraint.pruned }

theorem TableGenerator.annotation_pruned (g : TableGenerator) :
    g.pruned.annotation = g.annotation :=
  Annotation.ofEntries_congr (by
    simp only [entries, pruned, UniqueConstraint.annotations_pruned,
      Entry.stated_cons, Entry.value?_string_nonempty?])

def SequenceGenerator.pruned (g : SequenceGenerator) : SequenceGenerator :=
  { g with
    name := nonempty? g.name
    catalog := nonempty? g.catalog
    schema := nonempty? g.schema
    sequenceName := nonempty? g.sequenceName }

theorem SequenceGenerator.annotation_pruned (g : SequenceGenerator) :
    g.pruned.annotation = g.annotation :=
  Annotation.ofEntries_congr (by
    simp only [entries, pruned, Entry.stated_cons, Entry.value?_string_nonempty?])

def QueryHint.pruned (h : QueryHint) : QueryHint := ⟨nonempty? h.name, nonempty? h.value⟩

theorem QueryHint.annotations_pruned (hs : List QueryHint) :
    (hs.map pruned).map QueryHint.annotation = hs.map QueryHint.annotation := by
  rw [List.map_map]
  refine List.map_congr_left fun h _ => ?_
  exact Annotation.ofEntries_congr (by
    simp only [pruned, Entry.stated_cons, Entry.value?_string_nonempty?])

def NamedQuery.pruned (q : NamedQuery) : NamedQuery :=
  { q with
    name := nonempty? q.name
    query := nonempty? q.query
    hints := q.hints.map QueryHint.pruned }

theorem NamedQuery.annotation_pruned (q : NamedQuery) : q.pruned.annotation = q.annotation :=
  Annotation.ofEntries_congr (by
    simp only [entries, pruned, QueryHint.annotations_pruned,
      Entry.stated_cons, Entry.value?_string_nonempty?])

def NamedNativeQuery.pruned (q : NamedNativeQuery) : NamedNativeQuery where
  name := nonempty? q.name
  query := nonempty? q.query
  resultSetMapping := nonempty? q.resultSetMapping
  resultClass := nonempty? q.resultClass
  hints := q.hints.map QueryHint.pruned

theorem NamedNativeQuery.annotation_pruned (q : NamedNativeQuery) (path : ClassPath)
    (d : Defaults) : q.pruned.annotation path d = q.annotation path d := by
  have hbuilt : ∀ c : Option String,
      Annotation.ofEntries .namedNativeQuery none (q.pruned.entries c) =
        .ofEntries .namedNativeQuery none (q.entries c) := fun c =>
    Annotation.ofEntries_congr (by
      simp only [entries, pruned, QueryHint.annotations_pruned,
        Entry.stated_cons, Entry.value?_string_nonempty?])
  unfold annotation
  simp only [hbuilt]
  rw [pruned, ClassPath.resolve?_nonempty?]

def FieldResult.pruned (r : FieldResult) : FieldResult := ⟨nonempty? r.name, nonempty? r.column⟩

theorem FieldResult.annotations_pruned (rs : List FieldResult) :
    (rs.map pruned).map FieldResult.annotation = rs.map FieldResult.annotation := by
  rw [List.map_map]
  refine List.map_congr_left fun r _ => ?_
  exact Annotation.ofEntries_congr (by
    simp only [pruned, Entry.stated_cons, Entry.value?_string_nonempty?])

def EntityResult.pruned (r : EntityResult) : EntityResult where
  entityClass := nonempty? r.entityClass
  discriminatorColumn := nonempty? r.discriminatorColumn
  fields := r.fields.map FieldResult.pruned

theorem EntityResult.annotation_pruned (r : EntityResult) (path : ClassPath) (d : Defaults) :
    r.pruned.annotation path d = r.annotation path d := by
  have hbuilt : ∀ c : Option String, Annotation.ofEntries .entityResult none (r.pruned.entries c) =
      .ofEntries .entityResult none (r.entries c) := fun c =>
    Annotation.ofEntries_congr (by
      simp only [entries, pruned, FieldResult.annotations_pruned,
        Entry.stated_cons, Entry.value?_string_nonempty?])
  unfold annotation
  simp only [hbuilt]
  rw [pruned, ClassPath.resolve?_nonempty?]

def ColumnResult.pruned (r : ColumnResult) : ColumnResult := ⟨nonempty? r.name⟩

theorem ColumnResult.annotations_pruned (rs : List ColumnResult) :
    (rs.map pruned).map ColumnResult.annotation = rs.map ColumnResult.annotation := by
  rw [List.map_map]
  refine List.map_congr_left fun r _ => ?_
  exact Annotation.ofEntries_congr (by
    simp only [pruned, Entry.stated_cons, Entry.value?_string_nonempty?])

def ResultSetMapping.pruned (m : ResultSetMapping) : ResultSetMapping where
  name := nonempty? m.name
  entities := m.entities.map EntityResult.pruned
  columns := m.columns.map ColumnResult.pruned

theorem ResultSetMapping.annotation_pruned (m : ResultSetMapping) (path : ClassPath)
    (d : Defaults) : m.pruned.annotation path d = m.annotation path d := by
  have hbuilt : ∀ as : List Annotation,
      Annotation.ofEntries .sqlResultSetMapping none (m.pruned.entries as) =
        .ofEntries .sqlResultSetMapping none (m.entries as) := fun as =>
    Annotation.ofEntries_congr (by
      simp only [entries, pruned, ColumnResult.annotations_pruned,
        Entry.stated_cons, Entry.value?_string_nonempty?])
  have hentities : (m.pruned.entities.mapM fun r => r.annotation path d) =
      m.entities.mapM fun r => r.annotation path d :=
    Outcome.mapM_congr (List.forall₂_map_left_iff.2 (List.forall₂_same.2 fun r _ =>
      r.annotation_pruned path d))
  unfold annotation
  simp only [hbuilt, hentities]

namespace GlobalDeclarations

def pruned (g : GlobalDeclarations) : GlobalDeclarations where
  tableGenerators := g.tableGenerators.map TableGenerator.pruned
  sequenceGenerators := g.sequenceGenerators.map SequenceGenerator.pruned
  namedQueries := g.namedQueries.map NamedQuery.pruned
  namedNativeQueries := g.namedNativeQueries.map NamedNativeQuery.pruned
  sqlResultSetMappings := g.sqlResultSetMappings.map ResultSetMapping.pruned

/-- **Global declarations are built alike without their empty texts.** -/
theorem build_pruned (g : GlobalDeclarations) (path : ClassPath) (d : Defaults) :
    g.pruned.build path d = g.build path d := by
  have hannotations : g.pruned.annotations path d = g.annotations path d := by
    simp only [annotations, pruned, List.map_map, Function.comp_def,
      TableGenerator.annotation_pruned, SequenceGenerator.annotation_pruned,
      NamedQuery.annotation_pruned, NamedNativeQuery.annotation_pruned,
      ResultSetMapping.annotation_pruned]
  rw [build, hannotations, build]

end GlobalDeclarations

/-- The document without its empty texts; its defaults are left as they are. -/
def Document.pruned (doc : Document) : Document :=
  { doc with entities := doc.entities.map Entity.pruned, globals := doc.globals.pruned }

end Declaration

end MappingMetadata
