import MappingMetadata.Proofs.Annotation.Sameness
import MappingMetadata.Proofs.Declaration.Pruning

/-!
# What annotations retain of declarations

An annotation states what a declaration states, and leaves out what is absent or empty. A join
or collection table without a schema or a catalog takes those of the defaults. Nothing else is
lost: up to empty texts and these defaults (`Builder.normal`), annotations tell declarations apart.

**Theorem (`Builder.build_retains`).** When no package is assumed and every class can be loaded,
the builder of each kind of declaration builds the same for two declarations just when their
normal forms are equal, and the normal form can be read back from what is built.

The proof goes declaration by declaration, nested ones first. In each the names of the entries
differ, so the annotations are compared entry by entry; an entry retains a member as it is, a
text up to being empty, and nested declarations as those retain themselves. A list of declarations
is told from a single one by the kind of the wrapper.
-/

namespace MappingMetadata

/-! ## Optional texts -/

@[simp] theorem Entry.same_string_iff {s t : Option String} :
    (string s).Same (string t) ↔ nonempty? s = nonempty? t :=
  rel_same_map_iff (fun x y => by simp [Value.same]) _ _

@[simp] theorem Entry.same_classRef_iff {s t : Option String} :
    (classRef s).Same (classRef t) ↔ nonempty? s = nonempty? t :=
  rel_same_map_iff (fun x y => by simp [Value.same]) _ _

@[simp] theorem nonempty?_nonempty? (o : Option String) : nonempty? (nonempty? o) = nonempty? o :=
  filter_nonempty? o

@[simp] theorem nonempty?_empty : nonempty? (some "") = none := rfl

/-- A text that must be given is told from an empty one, for that alone is not stated. -/
@[simp] theorem nonempty?_some_inj {s t : String} :
    nonempty? (some s) = nonempty? (some t) ↔ s = t := by
  by_cases hs : s = ""
  · subst hs
    by_cases ht : t = ""
    · simp [ht]
    · rw [nonempty?_empty, nonempty?_eq_some_iff.2 ⟨rfl, ht⟩]
      simp [Ne.symm ht]
  · rw [nonempty?_eq_some_iff.2 ⟨rfl, hs⟩, eq_comm, nonempty?_eq_some_iff, Option.some.injEq]
    exact ⟨fun h => h.1.symm, fun h => ⟨h.symm, hs⟩⟩

theorem LockMode.name_injective : Function.Injective LockMode.name := by
  intro a b
  cases a <;> cases b <;> simp [name]

namespace Declaration

/-! ## Columns -/

theorem Column.retains (site : Option Site) :
    Retains (fun c : Column => c.annotation site) pruned :=
  retains_ofEntries (fun _ _ => rfl) (fun c => by simp [entries, Assoc.keys]) fun c c' => by
    simp [entries, pruned]

theorem JoinColumn.retains (site : Option Site) :
    Retains (fun c : JoinColumn => c.annotation site) pruned :=
  retains_ofEntries (fun _ _ => rfl) (fun c => by simp [entries, Assoc.keys]) fun c c' => by
    simp [entries, pruned]

@[simp] theorem JoinColumn.same_nested_iff {cs cs' : List JoinColumn} :
    (Entry.array (nested cs)).Same (.array (nested cs')) ↔ cs.map pruned = cs'.map pruned :=
  Entry.same_array_iff (retains none) cs cs'

theorem JoinColumn.rel_listAnnotation_iff (site : Option Site) (cs cs' : List JoinColumn) :
    Option.Rel (fun a a' => a.same a') (JoinColumn.listAnnotation cs site)
        (JoinColumn.listAnnotation cs' site) ↔
      cs.map pruned = cs'.map pruned := by
  have hkind : ∀ (c : JoinColumn) site, (c.annotation site).kind = .joinColumn := fun _ _ => rfl
  exact Annotation.rel_ofItems_iff retains (fun c s => by simp [hkind]) site cs cs'

theorem OrderColumn.retains (site : Option Site) :
    Retains (fun c : OrderColumn => c.annotation site) pruned :=
  retains_ofEntries (fun _ _ => rfl) (fun c => by simp [entries, Assoc.keys]) fun c c' => by
    simp [entries, pruned]

theorem PrimaryKeyJoinColumn.retains (site : Option Site) :
    Retains (fun c : PrimaryKeyJoinColumn => c.annotation site) pruned :=
  retains_ofEntries (fun _ _ => rfl) (fun c => by simp [entries, Assoc.keys]) fun c c' => by
    simp [entries, pruned]

theorem PrimaryKeyJoinColumn.rel_listAnnotation_iff (site : Option Site)
    (cs cs' : List PrimaryKeyJoinColumn) :
    Option.Rel (fun a a' => a.same a') (PrimaryKeyJoinColumn.listAnnotation cs site)
        (PrimaryKeyJoinColumn.listAnnotation cs' site) ↔
      cs.map pruned = cs'.map pruned := by
  have hkind : ∀ (c : PrimaryKeyJoinColumn) site,
      (c.annotation site).kind = .primaryKeyJoinColumn := fun _ _ => rfl
  exact Annotation.rel_ofItems_iff retains (fun c s => by simp [hkind]) site cs cs'

/-! ## Tables -/

theorem UniqueConstraint.retains : Retains UniqueConstraint.annotation pruned :=
  retains_ofEntries (fun _ _ => rfl) (fun c => by simp [entries, Assoc.keys]) fun c c' => by
    simp [entries, pruned]

/-- Among the texts that are stated and the default, at most the default is empty. -/
@[simp] theorem nonempty?_orDefault_iff {s t fallback : Option String} :
    nonempty? (orDefault s fallback) = nonempty? (orDefault t fallback) ↔
      (nonempty? s).or fallback = (nonempty? t).or fallback := by
  have horDefault : ∀ s, orDefault s fallback = (nonempty? s).or fallback := fun _ => rfl
  rw [horDefault, horDefault]
  cases hs : nonempty? s with
  | none =>
    cases ht : nonempty? t with
    | none => simp
    | some y =>
      have hy : y ≠ "" := (nonempty?_eq_some_iff.1 ht).2
      rw [Option.none_or, Option.some_or, nonempty?_eq_some_iff.2 ⟨rfl, hy⟩, nonempty?_eq_some_iff]
      exact and_iff_left hy
  | some x =>
    have hx : x ≠ "" := (nonempty?_eq_some_iff.1 hs).2
    cases nonempty? t with
    | none =>
      rw [Option.none_or, Option.some_or, nonempty?_eq_some_iff.2 ⟨rfl, hx⟩, eq_comm,
        nonempty?_eq_some_iff, eq_comm (a := some x)]
      exact and_iff_left hx
    | some y => simp

/-- The table without empty texts, and with the schema and the catalog of the defaults where it
has none. -/
def JoinTable.located (t : JoinTable) (d : Defaults) : JoinTable :=
  { t.pruned with
    catalog := t.pruned.catalog.or d.catalog
    schema := t.pruned.schema.or d.schema }

theorem JoinTable.retains (d : Defaults) (site : Option Site) :
    Retains (fun t : JoinTable => t.annotation d site) fun t => t.located d :=
  retains_ofEntries (fun _ _ => rfl) (fun t => by simp [entries, Assoc.keys]) fun t t' => by
    simp [entries, located, pruned, Entry.same_array_iff UniqueConstraint.retains]

/-- The table without empty texts, and with the schema and the catalog of the defaults where it
has none. -/
def CollectionTable.located (t : CollectionTable) (d : Defaults) : CollectionTable :=
  { t.pruned with
    catalog := t.pruned.catalog.or d.catalog
    schema := t.pruned.schema.or d.schema }

theorem CollectionTable.retains (d : Defaults) (site : Option Site) :
    Retains (fun t : CollectionTable => t.annotation d site) fun t => t.located d :=
  retains_ofEntries (fun _ _ => rfl) (fun t => by simp [entries, Assoc.keys]) fun t t' => by
    simp [entries, located, pruned, Entry.same_array_iff UniqueConstraint.retains]

/-! ## Overrides -/

theorem AttributeOverride.retains (site : Option Site) :
    Retains (fun o : AttributeOverride => o.annotation site) pruned :=
  retains_ofEntries (fun _ _ => rfl) (fun o => by simp [entries, Assoc.keys]) fun o o' => by
    simp [entries, pruned, Entry.same_nested_iff (Column.retains none)]

/-- The override without empty texts, its join table filled in from the defaults. -/
def AssociationOverride.located (o : AssociationOverride) (d : Defaults) : AssociationOverride :=
  { o.pruned with joinTable := o.joinTable.map fun t => t.located d }

theorem AssociationOverride.retains (d : Defaults) (site : Option Site) :
    Retains (fun o : AssociationOverride => o.annotation d site) fun o => o.located d :=
  retains_ofEntries (fun _ _ => rfl) (fun o => by simp [entries, Assoc.keys]) fun o o' => by
    simp [entries, located, pruned, Entry.same_nested_iff (JoinTable.retains d none)]

/-! ## Generators -/

theorem TableGenerator.retains : Retains TableGenerator.annotation pruned :=
  retains_ofEntries (fun _ _ => rfl) (fun g => by simp [entries, Assoc.keys]) fun g g' => by
    simp [entries, pruned, Entry.same_array_iff UniqueConstraint.retains]

theorem SequenceGenerator.retains : Retains SequenceGenerator.annotation pruned :=
  retains_ofEntries (fun _ _ => rfl) (fun g => by simp [entries, Assoc.keys]) fun g g' => by
    simp [entries, pruned]

/-! ## Queries -/

theorem QueryHint.retains : Retains QueryHint.annotation pruned :=
  retains_ofEntries (fun _ _ => rfl) (fun h => by simp [Assoc.keys]) fun h h' => by
    simp [pruned]

theorem NamedQuery.retains : Retains NamedQuery.annotation pruned :=
  retains_ofEntries (fun _ _ => rfl) (fun q => by simp [entries, Assoc.keys]) fun q q' => by
    simp [entries, pruned, Entry.same_array_iff QueryHint.retains,
      (Option.map_injective LockMode.name_injective).eq_iff]

/-- Built with its result class under its own name. -/
def NamedNativeQuery.built (q : NamedNativeQuery) : Annotation :=
  .ofEntries .namedNativeQuery none (q.entries (nonempty? q.resultClass))

theorem NamedNativeQuery.retains : Retains built pruned :=
  retains_ofEntries (fun _ _ => rfl) (fun q => by simp [entries, Assoc.keys]) fun q q' => by
    simp [entries, pruned, Entry.same_array_iff QueryHint.retains]

theorem FieldResult.retains : Retains FieldResult.annotation pruned :=
  retains_ofEntries (fun _ _ => rfl) (fun r => by simp [Assoc.keys]) fun r r' => by
    simp [pruned]

/-- Built with its entity class under its own name. -/
def EntityResult.built (r : EntityResult) : Annotation :=
  .ofEntries .entityResult none (r.entries (nonempty? r.entityClass))

theorem EntityResult.retains : Retains built pruned :=
  retains_ofEntries (fun _ _ => rfl) (fun r => by simp [entries, Assoc.keys]) fun r r' => by
    -- the entity class is stated last, but declared first
    simp only [entries, pruned, mk.injEq, List.forall₂_cons, List.forall₂_nil_left_iff, and_true,
      Entry.same_string_iff, Entry.same_classRef_iff, nonempty?_nonempty?,
      Entry.same_array_iff FieldResult.retains]
    tauto

theorem ColumnResult.retains : Retains ColumnResult.annotation pruned :=
  retains_ofEntries (fun _ _ => rfl) (fun r => by simp [Assoc.keys]) fun r r' => by
    simp [pruned]

/-- Built with the entity classes of its entity results under their own names. -/
def ResultSetMapping.built (m : ResultSetMapping) : Annotation :=
  .ofEntries .sqlResultSetMapping none (m.entries (m.entities.map EntityResult.built))

theorem ResultSetMapping.retains : Retains built pruned :=
  retains_ofEntries (fun _ _ => rfl) (fun m => by simp [entries, Assoc.keys]) fun m m' => by
    simp [entries, pruned, Entry.same_array_iff EntityResult.retains,
      Entry.same_array_iff ColumnResult.retains]

/-! ## Classes under their own names -/

section

variable {d : Defaults} (hpackage : d.package.getD "" = "")

include hpackage

/-- Without a package every class that is named has its own name. -/
theorem resolve?_everything (className : Option String) (role : String) :
    ClassPath.everything.resolve? d className role = .ok (nonempty? className) := by
  have hqualify : ∀ c, d.qualify c = c := by
    intro c
    cases hd : d.package with
    | none => simp [Defaults.qualify, hd]
    | some package =>
      have hempty : package = "" := by simpa [hd] using hpackage
      simp [Defaults.qualify, hd, hempty]
  unfold ClassPath.resolve?
  change _ = Except.ok (className.filter fun c => !c.isEmpty)
  cases className.filter fun c => !c.isEmpty with
  | none => rfl
  | some c => simp [ClassPath.resolve, ClassPath.everything, hqualify, Except.map]

theorem NamedNativeQuery.annotation_everything (q : NamedNativeQuery) :
    q.annotation .everything d = .ok q.built := by
  rw [NamedNativeQuery.annotation, resolve?_everything hpackage]
  rfl

theorem EntityResult.annotation_everything (r : EntityResult) :
    r.annotation .everything d = .ok r.built := by
  rw [EntityResult.annotation, resolve?_everything hpackage]
  rfl

theorem ResultSetMapping.annotation_everything (m : ResultSetMapping) :
    m.annotation .everything d = .ok m.built := by
  have hentities : (m.entities.mapM fun r => r.annotation .everything d) =
      .ok (m.entities.map EntityResult.built) := by
    simpa using Outcome.mapM_map_eq_ok (g := id) (h := EntityResult.built)
      fun r (_ : r ∈ m.entities) => r.annotation_everything hpackage
  rw [ResultSetMapping.annotation, hentities]
  rfl

end

/-! ## Every builder -/

/-- The declarations of which annotations are built on their own. -/
inductive Builder where
  | column
  | joinColumn
  | orderColumn
  | primaryKeyJoinColumn
  /-- Join columns as a list. -/
  | joinColumns
  /-- Primary key join columns as a list. -/
  | primaryKeyJoinColumns
  | uniqueConstraint
  | joinTable
  | collectionTable
  | attributeOverride
  | associationOverride
  | tableGenerator
  | sequenceGenerator
  | namedQuery
  | namedNativeQuery
  | sqlResultSetMapping
  deriving DecidableEq, Repr

namespace Builder

/-- What is declared. -/
def Declared : Builder → Type
  | column => Column
  | joinColumn => JoinColumn
  | orderColumn => OrderColumn
  | primaryKeyJoinColumn => PrimaryKeyJoinColumn
  | joinColumns => List JoinColumn
  | primaryKeyJoinColumns => List PrimaryKeyJoinColumn
  | uniqueConstraint => UniqueConstraint
  | joinTable => JoinTable
  | collectionTable => CollectionTable
  | attributeOverride => AttributeOverride
  | associationOverride => AssociationOverride
  | tableGenerator => TableGenerator
  | sequenceGenerator => SequenceGenerator
  | namedQuery => NamedQuery
  | namedNativeQuery => NamedNativeQuery
  | sqlResultSetMapping => ResultSetMapping

/-- Build the annotation of a declaration, if there is one; not all declarations are given a
site, and some look up classes. -/
def build (path : ClassPath) (d : Defaults) (site : Option Site) :
    (b : Builder) → b.Declared → Outcome (Option Annotation)
  | column, c => .ok (some (Column.annotation c site))
  | joinColumn, c => .ok (some (JoinColumn.annotation c site))
  | orderColumn, c => .ok (some (OrderColumn.annotation c site))
  | primaryKeyJoinColumn, c => .ok (some (PrimaryKeyJoinColumn.annotation c site))
  | joinColumns, cs => .ok (JoinColumn.listAnnotation cs site)
  | primaryKeyJoinColumns, cs => .ok (PrimaryKeyJoinColumn.listAnnotation cs site)
  | uniqueConstraint, c => .ok (some (UniqueConstraint.annotation c))
  | joinTable, t => .ok (some (JoinTable.annotation t d site))
  | collectionTable, t => .ok (some (CollectionTable.annotation t d site))
  | attributeOverride, o => .ok (some (AttributeOverride.annotation o site))
  | associationOverride, o => .ok (some (AssociationOverride.annotation o d site))
  | tableGenerator, g => .ok (some (TableGenerator.annotation g))
  | sequenceGenerator, g => .ok (some (SequenceGenerator.annotation g))
  | namedQuery, q => .ok (some (NamedQuery.annotation q))
  | namedNativeQuery, q => (NamedNativeQuery.annotation q path d).map some
  | sqlResultSetMapping, m => (ResultSetMapping.annotation m path d).map some

/-- The declaration without its empty texts, with the schema and the catalog of the defaults in
tables that have none. -/
def normal (d : Defaults) : (b : Builder) → b.Declared → b.Declared
  | column, c => Column.pruned c
  | joinColumn, c => JoinColumn.pruned c
  | orderColumn, c => OrderColumn.pruned c
  | primaryKeyJoinColumn, c => PrimaryKeyJoinColumn.pruned c
  | joinColumns, cs => List.map JoinColumn.pruned cs
  | primaryKeyJoinColumns, cs => List.map PrimaryKeyJoinColumn.pruned cs
  | uniqueConstraint, c => UniqueConstraint.pruned c
  | joinTable, t => JoinTable.located t d
  | collectionTable, t => CollectionTable.located t d
  | attributeOverride, o => AttributeOverride.pruned o
  | associationOverride, o => AssociationOverride.located o d
  | tableGenerator, g => TableGenerator.pruned g
  | sequenceGenerator, g => SequenceGenerator.pruned g
  | namedQuery, q => NamedQuery.pruned q
  | namedNativeQuery, q => NamedNativeQuery.pruned q
  | sqlResultSetMapping, m => ResultSetMapping.pruned m

/-- Building never fails, and what is built is the same just when what it is built of has the same
form. -/
def Keeps {α β : Type} (build : α → Outcome (Option Annotation)) (form : α → β) : Prop :=
  ∃ make : α → Option Annotation, (∀ x, build x = .ok (make x)) ∧
    ∀ x y, Option.Rel (fun a a' => a.same a') (make x) (make y) ↔ form x = form y

theorem keeps_of_retains {α β : Type} {build : α → Outcome (Option Annotation)}
    {make : α → Annotation} {form : α → β} (h : Retains make form)
    (hbuild : ∀ x, build x = .ok (some (make x))) : Keeps build form :=
  ⟨fun x => some (make x), hbuild, fun x y => Option.rel_some_some.trans (h x y)⟩

/-- Each builder keeps the normal form of what is declared. -/
theorem keeps_normal {d : Defaults} (hpackage : d.package.getD "" = "") (site : Option Site)
    (b : Builder) : Keeps (b.build .everything d site) (b.normal d) := by
  cases b with
  | column => exact keeps_of_retains (Column.retains site) fun _ => rfl
  | joinColumn => exact keeps_of_retains (JoinColumn.retains site) fun _ => rfl
  | orderColumn => exact keeps_of_retains (OrderColumn.retains site) fun _ => rfl
  | primaryKeyJoinColumn => exact keeps_of_retains (PrimaryKeyJoinColumn.retains site) fun _ => rfl
  | joinColumns => exact ⟨_, fun _ => rfl, JoinColumn.rel_listAnnotation_iff site⟩
  | primaryKeyJoinColumns =>
    exact ⟨_, fun _ => rfl, PrimaryKeyJoinColumn.rel_listAnnotation_iff site⟩
  | uniqueConstraint => exact keeps_of_retains UniqueConstraint.retains fun _ => rfl
  | joinTable => exact keeps_of_retains (JoinTable.retains d site) fun _ => rfl
  | collectionTable => exact keeps_of_retains (CollectionTable.retains d site) fun _ => rfl
  | attributeOverride => exact keeps_of_retains (AttributeOverride.retains site) fun _ => rfl
  | associationOverride => exact keeps_of_retains (AssociationOverride.retains d site) fun _ => rfl
  | tableGenerator => exact keeps_of_retains TableGenerator.retains fun _ => rfl
  | sequenceGenerator => exact keeps_of_retains SequenceGenerator.retains fun _ => rfl
  | namedQuery => exact keeps_of_retains NamedQuery.retains fun _ => rfl
  | namedNativeQuery =>
    refine keeps_of_retains NamedNativeQuery.retains fun q => ?_
    exact congrArg (Except.map some) (NamedNativeQuery.annotation_everything hpackage q)
  | sqlResultSetMapping =>
    refine keeps_of_retains ResultSetMapping.retains fun m => ?_
    exact congrArg (Except.map some) (ResultSetMapping.annotation_everything hpackage m)

/-- What has been kept can be read back from what was built. -/
theorem exists_read {α β : Type} {make : α → Option Annotation} {form : α → β}
    (h : ∀ x y, Option.Rel (fun a a' => a.same a') (make x) (make y) ↔ form x = form y) :
    ∃ read : Option Annotation → Option β, ∀ x, read (make x) = some (form x) := by
  have hfactors : Function.FactorsThrough (fun x => some (form x)) make := by
    intro x y hmake
    have hself : Option.Rel (fun a a' => a.same a') (make y) (make y) := (h y y).2 rfl
    have hform : form x = form y := (h x y).1 (hmake ▸ hself)
    exact congrArg some hform
  exact ⟨Function.extend make (fun x => some (form x)) fun _ => none, hfactors.extend_apply _⟩

/-- **What is built retains what is declared.** When no package is assumed and every class can be
loaded, a declaration is always built, two declarations are built the same just when their normal
forms are equal, and the normal form can be read back from what is built. -/
theorem build_retains (b : Builder) {d : Defaults} (hpackage : d.package.getD "" = "")
    (site : Option Site) :
    ∃ make : b.Declared → Option Annotation,
      (∀ x, b.build .everything d site x = .ok (make x)) ∧
      (∀ x y, Option.Rel (fun a a' => a.same a') (make x) (make y) ↔
        b.normal d x = b.normal d y) ∧
      ∃ read : Option Annotation → Option b.Declared,
        ∀ x, read (make x) = some (b.normal d x) := by
  obtain ⟨make, hbuild, hsame⟩ := keeps_normal hpackage site b
  exact ⟨make, hbuild, hsame, exists_read hsame⟩

/-- A join table in the default schema, whether or not it says so, is told from one with its join
columns the other way round. -/
theorem build_retains_joinTable :
    ∃ make : JoinTable → Option Annotation,
      (∀ t, joinTable.build .everything { schema := some "app" } none t = .ok (make t)) ∧
      Option.Rel (fun a a' => a.same a')
        (make { name := some "members", joinColumns := [.named "a", .named "b"] })
        (make { name := some "members", catalog := some "", schema := some "app",
                joinColumns := [.named "a", .named "b"] }) ∧
      ¬ Option.Rel (fun a a' => a.same a')
        (make { name := some "members", joinColumns := [.named "a", .named "b"] })
        (make { name := some "members", joinColumns := [.named "b", .named "a"] }) := by
  have hpackage : ({ schema := some "app" } : Defaults).package.getD "" = "" := rfl
  obtain ⟨make, hbuild, hsame, -⟩ := build_retains joinTable hpackage none
  refine ⟨make, hbuild, (hsame _ _).2 ?_, fun h => absurd ((hsame _ _).1 h) ?_⟩
  · exact of_decide_eq_true (p := JoinTable.located _ _ = JoinTable.located _ _) (by decide)
  · exact of_decide_eq_true (p := ¬ JoinTable.located _ _ = JoinTable.located _ _) (by decide)

end Builder

end Declaration

end MappingMetadata
