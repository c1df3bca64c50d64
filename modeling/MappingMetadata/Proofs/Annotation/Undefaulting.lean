import MappingMetadata.Choice
import MappingMetadata.Declaration.Attribute
import MappingMetadata.Proofs.Annotation.Revising
import MappingMetadata.Proofs.Index.Viewing

/-!
# What does not come from the defaults

The defaults for schema, catalog and cascade may state three fields: the schema and the catalog of a
join table or collection table, and the cascade of an association. *Undefaulting* an annotation
leaves these fields out. A join table also stands nested in an association override, by itself or in
a wrapper, and is undefaulted there as well; all else in the annotation stays.

**Theorem (`view_undefaulted`).** Undefaulting is a view.
-/

namespace MappingMetadata

namespace Value

/-- The value with its nested annotation changed. -/
def mapNested (g : Annotation → Annotation) : Value → Value
  | .nested a => .nested (g a)
  | v => v

/-- The value with the annotations of its list changed. -/
def mapArray (g : Annotation → Annotation) : Value → Value
  | .array items => .array (items.map g)
  | v => v

theorem string?_mapArray (g : Annotation → Annotation) (v : Value) :
    (v.mapArray g).string? = v.string? := by
  cases v <;> rfl

theorem array?_mapArray (g : Annotation → Annotation) (v : Value) :
    (v.mapArray g).array? = v.array?.map (List.map g) := by
  cases v <;> rfl

end Value

namespace Annotation

/-! ## Rules by kind -/

/-- Leaves out where a table is. -/
def tableRule : Kind → Rule
  | .joinTable | .collectionTable => .dropping ["catalog", "schema"]
  | _ => .keeping

/-- A table without schema and catalog; any other annotation as it is. -/
def unlocated (a : Annotation) : Annotation := a.revised (tableRule a.kind)

/-- Leaves out where the join table of an override is. -/
def overrideRule : Kind → Rule
  | .associationOverride => .changing "joinTable" (.mapNested unlocated)
  | _ => .keeping

/-- An association override whose join table is without schema and catalog. -/
def unlocatedWithin (a : Annotation) : Annotation := a.revised (overrideRule a.kind)

/-- Leaves out whatever the defaults for schema, catalog and cascade may state. -/
def undefaultedRule : Kind → Rule
  | .oneToOne | .oneToMany | .manyToOne | .manyToMany => .dropping ["cascade"]
  | .associationOverrides => .changing "value" (.mapArray unlocatedWithin)
  | .associationOverride => overrideRule .associationOverride
  | k => tableRule k

/-- The annotation without what the defaults for schema, catalog and cascade may state. -/
def undefaulted (a : Annotation) : Annotation := a.revised (undefaultedRule a.kind)

/-- In the field `value` only the members of a wrapper of association overrides are changed. -/
theorem undefaultedRule_value (k : Kind) : undefaultedRule k "value" = some id ∨
    k = .associationOverrides ∧ undefaultedRule k "value" = some (.mapArray unlocatedWithin) := by
  cases k <;> first | exact Or.inl rfl | exact Or.inr ⟨rfl, rfl⟩

/-- Names are kept. -/
theorem undefaultedRule_name (k : Kind) : undefaultedRule k "name" = some id := by
  cases k <;> rfl

/-- Of the fields that are carried over, only the join table of an association override changes. -/
theorem undefaultedRule_carried (f : Override.Family) {k : Kind} (hk : k ≠ f.scalar) {name : String}
    (hname : name ∈ f.carriedFields) : undefaultedRule k name = some id := by
  cases f with
  | attributes =>
    obtain rfl : name = "column" := List.mem_singleton.1 hname
    cases k <;> rfl
  | associations =>
    obtain rfl | rfl : name = "joinColumns" ∨ name = "joinTable" := by
      simpa [Override.Family.carriedFields] using hname
    · cases k <;> rfl
    · cases k <;> first | rfl | exact absurd rfl hk

theorem undefaulted_of_kind {a : Annotation} (h : a.kind = .associationOverride) :
    a.undefaulted = a.unlocatedWithin := by
  rw [undefaulted, unlocatedWithin, h]
  rfl

theorem unlocatedWithin_of_kind {a : Annotation} (h : a.kind ≠ .associationOverride) :
    a.unlocatedWithin = a := by
  have hrule : overrideRule a.kind = Rule.keeping := by
    cases hk : a.kind <;> first | rfl | exact absurd hk h
  rw [unlocatedWithin, hrule, revised_keeping]

/-- Overrides that look the same with their tables unlocated look the same undefaulted. -/
theorem undefaulted_eq_of_unlocatedWithin_eq {a b : Annotation}
    (h : a.unlocatedWithin = b.unlocatedWithin) : a.undefaulted = b.undefaulted := by
  have hkind : a.kind = b.kind := kind_eq_of_revised_eq h
  by_cases hk : a.kind = .associationOverride
  · rw [undefaulted_of_kind hk, undefaulted_of_kind (hkind ▸ hk), h]
  · rw [unlocatedWithin_of_kind hk, unlocatedWithin_of_kind (hkind ▸ hk)] at h
    rw [h]

/-! ## The view -/

theorem string?_value_undefaulted (a : Annotation) :
    a.undefaulted.string? "value" = a.string? "value" := by
  unfold string? undefaulted
  rw [field?_revised]
  rcases undefaultedRule_value a.kind with hrule | ⟨-, hrule⟩
  · simp [hrule]
  · cases h : a.field? "value" <;> simp [hrule, Value.string?_mapArray]

theorem undefaulted_wrapper (f : Override.Family) (site : Option Site) {members : List Annotation}
    (h : ∀ m ∈ members, m.kind = f.scalar) :
    (wrapper f.wrapper site members).undefaulted =
      wrapper f.wrapper site (members.map undefaulted) := by
  cases f with
  | attributes =>
    have hmembers : members.map undefaulted = members := by
      refine (List.map_congr_left fun m hm => ?_).trans (List.map_id _)
      rw [undefaulted, h m hm]
      exact revised_keeping m
    rw [hmembers]
    exact revised_keeping _
  | associations =>
    have hmembers : members.map undefaulted = members.map unlocatedWithin :=
      List.map_congr_left fun m hm => undefaulted_of_kind (h m hm)
    rw [hmembers]
    rfl

/-- From annotations that look the same undefaulted, members that do can be taken. -/
theorem map_members_undefaulted {a b : Annotation} (h : a.undefaulted = b.undefaulted) :
    a.members.map undefaulted = b.members.map undefaulted := by
  have hkind : a.kind = b.kind := kind_eq_of_revised_eq h
  have hrevised : a.revised (undefaultedRule a.kind) = b.revised (undefaultedRule a.kind) := by
    rw [undefaulted, undefaulted, ← hkind] at h
    exact h
  unfold members
  rcases undefaultedRule_value a.kind with hrule | ⟨-, hrule⟩
  · have hvalue := map_field?_of_revised_eq hrevised hrule
    rw [Option.map_id, id, id] at hvalue
    rw [hvalue]
  · have hvalue := map_field?_of_revised_eq hrevised hrule
    have harray : ∀ v : Option Value, ((v.bind Value.array?).getD []).map unlocatedWithin =
        ((v.map (.mapArray unlocatedWithin)).bind Value.array?).getD [] := by
      intro v
      cases v with
      | none => rfl
      | some v =>
        rw [Option.map_some, Option.bind_some, Option.bind_some, Value.array?_mapArray]
        cases v.array? <;> rfl
    have hunlocated : (((a.field? "value").bind Value.array?).getD []).map unlocatedWithin =
        (((b.field? "value").bind Value.array?).getD []).map unlocatedWithin := by
      rw [harray, harray, hvalue]
    rw [← List.forall₂_eq_eq_eq, List.forall₂_map_left_iff, List.forall₂_map_right_iff]
      at hunlocated ⊢
    exact hunlocated.imp fun _ _ => undefaulted_eq_of_unlocatedWithin_eq

/-- **Undefaulting is a view.** -/
theorem view_undefaulted : View undefaulted where
  kind _ := rfl
  site _ := rfl
  value := string?_value_undefaulted
  wrapper _ site _ := undefaulted_wrapper _ site
  members _ _ := map_members_undefaulted

end Annotation

end MappingMetadata
