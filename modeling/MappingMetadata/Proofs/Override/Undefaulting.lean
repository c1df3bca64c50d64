import MappingMetadata.Proofs.Annotation.Undefaulting
import MappingMetadata.Proofs.Override.Viewing

/-!
# Carrying overrides over without what comes from the defaults

What is carried over from an annotation are its name and the fields that its family keeps. Both can
be told from the undefaulted annotation, up to where the join table is.

**Theorem (`carries_undefaulted`).** Annotations that look the same undefaulted are carried over as
overrides that do, or neither can be carried over.
-/

namespace MappingMetadata.Override

open Annotation

variable {f : Family} {a b : Annotation}

/-- Annotations that look the same undefaulted have the same name. -/
theorem name?_eq_of_undefaulted_eq (h : a.undefaulted = b.undefaulted) : a.name? = b.name? := by
  have hkind : a.kind = b.kind := kind_eq_of_revised_eq h
  unfold undefaulted at h
  rw [← hkind] at h
  have hfield := map_field?_of_revised_eq h (undefaultedRule_name a.kind)
  rw [Option.map_id, id, id] at hfield
  rw [name?, string?, hfield]
  rfl

/-- Of annotations that look the same undefaulted, the kept fields look the same in an override. -/
theorem revise_kept_eq (h : a.undefaulted = b.undefaulted) :
    Attributes.revise (undefaultedRule f.scalar) (Item.kept f a) =
      Attributes.revise (undefaultedRule f.scalar) (Item.kept f b) := by
  have hkind : a.kind = b.kind := kind_eq_of_revised_eq h
  unfold undefaulted at h
  rw [← hkind] at h
  have hfield : ∀ name ∈ f.carriedFields, ∀ g, undefaultedRule f.scalar name = some g →
      (a.field? name).map g = (b.field? name).map g := by
    intro name hname g hg
    by_cases hk : a.kind = f.scalar
    · exact map_field?_of_revised_eq h (hk ▸ hg)
    · have heq := map_field?_of_revised_eq h (undefaultedRule_carried f hk hname)
      rw [Option.map_id, id, id] at heq
      rw [heq]
  unfold Item.kept Attributes.revise
  rw [List.filterMap_filterMap, List.filterMap_filterMap]
  refine List.filterMap_congr fun name hname => ?_
  cases hrule : undefaultedRule f.scalar name with
  | none => cases a.field? name <;> cases b.field? name <;> simp [hrule]
  | some g =>
    have hg : (a.field? name).map g = (b.field? name).map g := hfield name hname g hrule
    have hshown : ∀ v : Option Value, ((v.map fun v => (name, v)).bind fun p =>
        (undefaultedRule f.scalar p.1).map fun g => (p.1, g p.2)) =
          (v.map g).map fun v => (name, v) := by
      intro v
      cases v <;> simp [hrule]
    rw [hshown, hshown, hg]

/-- What a carried override shows is what its fields show. -/
theorem undefaulted_carried_congr {name : String} {fields fields' : Attributes}
    (h : Attributes.revise (undefaultedRule f.scalar) fields =
      Attributes.revise (undefaultedRule f.scalar) fields') (d d' : Defaults)
    (site : Option Site) :
    (Item.annotation (.carried name fields : Item f) d site).undefaulted =
      (Item.annotation (.carried name fields' : Item f) d' site).undefaulted := by
  have hstated : ∀ fields : Attributes, Entry.stated
      (("name", .string (some name)) :: fields.map fun p => (p.1, .carried (some p.2))) =
      Entry.stated [("name", .string (some name))] ++ fields := by
    intro fields
    rw [← List.singleton_append, Entry.stated_append]
    refine congrArg (_ ++ ·) ?_
    rw [Entry.stated, List.filterMap_map]
    exact List.filterMap_some
  have hfields : ∀ (d : Defaults) (fields : Attributes),
      (Item.annotation (.carried name fields : Item f) d site).undefaulted =
        ⟨f.scalar, site, Assoc.ofList (Attributes.revise (undefaultedRule f.scalar)
          (Entry.stated [("name", .string (some name))] ++ fields))⟩ := by
    intro d fields
    rw [Item.annotation, undefaulted, revised, Annotation.ofEntries, Attributes.ofEntries_eq,
      hstated, Attributes.revise_ofList]
  rw [hfields, hfields, Attributes.revise_append, Attributes.revise_append, h]

/-- **Carrying over shows no more than is undefaulted.** -/
theorem carries_undefaulted (d d' : Defaults) : Carries undefaulted d d' := by
  intro f a b h
  have hname : a.name? = b.name? := name?_eq_of_undefaulted_eq h
  unfold Item.carry
  rw [← hname]
  cases a.name? with
  | none => exact .error _
  | some n => exact .ok ⟨rfl, undefaulted_carried_congr (revise_kept_eq h) d d'⟩

end MappingMetadata.Override
