import MappingMetadata.Proofs.Declaration.Pruning

/-!
# What the defaults for schema, catalog and cascade state

**Theorems (`JoinTable.located_annotation`, `CollectionTable.located_annotation`).** A table states
its schema and catalog as declared where they are declared and not empty, else as the defaults have
them, unless these are empty as well.

**Theorem (`AssociationAttribute.cascading_ofEntries`).** An association states the cascade that it
declares, with `PERSIST` at its end where the defaults ask for it and it is not covered.
-/

namespace MappingMetadata

/-- The annotation states schema and catalog as declared, else as the defaults have them. -/
structure Annotation.Located (a : Annotation) (catalog schema : Option String) (d : Defaults) :
    Prop where
  catalog : a.field? "catalog" = ((nonempty? catalog).or (nonempty? d.catalog)).map .string
  schema : a.field? "schema" = ((nonempty? schema).or (nonempty? d.schema)).map .string

/-- The declared cascade, and `PERSIST` where the defaults add it. -/
def cascadeUnder (d : Defaults) (declared : List Cascade) : List Cascade :=
  declared ++
    if d.cascadePersist = some true ∧ .all ∉ declared ∧ .persist ∉ declared then [.persist] else []

/-- The annotation states a cascade as declared and as the defaults add to it. -/
def Annotation.Cascading (a : Annotation) (declared : List Cascade) (d : Defaults) : Prop :=
  a.field? "cascade" = if cascadeUnder d declared = [] then none
    else some (.constants "CascadeType" ((cascadeUnder d declared).map Cascade.name))

namespace Declaration

open Annotation (field?_ofEntries)

theorem value?_string_orDefault (declared fallback : Option String) :
    (Entry.string (orDefault declared fallback)).value? =
      ((nonempty? declared).or (nonempty? fallback)).map .string := by
  refine congrArg (Option.map Value.string) ?_
  rw [orDefault, nonempty?, nonempty?]
  cases declared with
  | none => rfl
  | some s => by_cases hs : s = "" <;> simp [Option.filter, hs]

theorem located_ofEntries {kind : Kind} {site : Option Site} {entries : List (String × Entry)}
    (hkeys : (Assoc.keys entries).Nodup) {catalog schema : Option String} {d : Defaults}
    (hcatalog : Assoc.get? entries "catalog" = some (.string (orDefault catalog d.catalog)))
    (hschema : Assoc.get? entries "schema" = some (.string (orDefault schema d.schema))) :
    Annotation.Located (.ofEntries kind site entries) catalog schema d := by
  constructor
  · rw [field?_ofEntries hkeys, hcatalog]
    exact value?_string_orDefault _ _
  · rw [field?_ofEntries hkeys, hschema]
    exact value?_string_orDefault _ _

theorem JoinTable.located_annotation (t : JoinTable) (d : Defaults) (site : Option Site) :
    (t.annotation d site).Located t.catalog t.schema d := by
  have hkeys : (Assoc.keys (t.entries d)).Nodup := show List.Nodup ["name", "catalog", "schema",
    "joinColumns", "inverseJoinColumns", "uniqueConstraints"] by decide
  exact located_ofEntries hkeys rfl rfl

theorem CollectionTable.located_annotation (t : CollectionTable) (d : Defaults)
    (site : Option Site) : (t.annotation d site).Located t.catalog t.schema d := by
  have hkeys : (Assoc.keys (t.entries d)).Nodup := show List.Nodup ["name", "catalog", "schema",
    "joinColumns", "uniqueConstraints"] by decide
  exact located_ofEntries hkeys rfl rfl

theorem AssociationAttribute.fullCascade_eq (a : AssociationAttribute) (d : Defaults) :
    a.fullCascade d = cascadeUnder d a.cascade := by
  have hcovered : (a.cascade.any fun c => c = .all || c = .persist) =
      decide (.all ∈ a.cascade ∨ .persist ∈ a.cascade) := by
    rw [Bool.eq_iff_iff]
    simp only [List.any_eq_true, Bool.or_eq_true, decide_eq_true_eq]
    constructor
    · rintro ⟨c, hc, rfl | rfl⟩
      · exact Or.inl hc
      · exact Or.inr hc
    · rintro (hc | hc)
      · exact ⟨_, hc, Or.inl rfl⟩
      · exact ⟨_, hc, Or.inr rfl⟩
  unfold fullCascade cascadeUnder Defaults.cascades
  rw [hcovered]
  match d.cascadePersist with
  | none | some false => simp
  | some true => by_cases hall : Cascade.all ∈ a.cascade <;>
      by_cases hpersist : Cascade.persist ∈ a.cascade <;> simp [hall, hpersist]

theorem AssociationAttribute.cascading_ofEntries (a : AssociationAttribute) (d : Defaults)
    (kind : Kind) (site : Option Site) (target : Option String) :
    Annotation.Cascading (.ofEntries kind site (a.entries d target)) a.cascade d := by
  have hkeys : (Assoc.keys (a.entries d target)).Nodup :=
    show List.Nodup ["targetEntity", "cascade"] by decide
  refine (field?_ofEntries hkeys _).trans ?_
  change (Entry.constants "CascadeType" ((a.fullCascade d).map Cascade.name)).value? = _
  rw [a.fullCascade_eq, Entry.value?]
  simp only [List.isEmpty_iff, List.map_eq_nil_iff]

end Declaration

end MappingMetadata
