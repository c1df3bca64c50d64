import MappingMetadata.Declaration.Document
import MappingMetadata.Entity.Writes
import MappingMetadata.Proofs.Annotation.Nesting

/-!
# Declarations nest only what is bare

The annotation of every declaration of an entity is tidy: the columns, tables and constraints that
it nests sit on no site and nest in turn only what is bare.
-/

namespace MappingMetadata

/-- The annotation for a list is that of its one item, or a wrapper of at least two. -/
theorem Annotation.ofItems_eq_some {α : Type} {plural : Kind} {one : α → Option Site → Annotation}
    {site : Option Site} {items : List α} {a : Annotation}
    (h : ofItems plural one site items = some a) :
    (∃ i, items = [i] ∧ a = one i site) ∨
      (2 ≤ items.length ∧ a = wrapper plural site (items.map fun i => one i none)) := by
  match items with
  | [] => cases h
  | [i] => cases h; exact Or.inl ⟨i, rfl, rfl⟩
  | i :: j :: rest => cases h; exact Or.inr ⟨by simp, rfl⟩

theorem Annotation.tidy_wrapper {kind : Kind} {site : Option Site} {members : List Annotation}
    (h : ∀ m ∈ members, m.Bare ∧ m.Tidy) : (wrapper kind site members).Tidy := by
  rw [tidy_iff]
  intro p hp
  rw [wrapper, List.mem_singleton] at hp
  rw [hp]
  exact Value.tidy_array h

theorem Temporal.tidy_annotation (t : Temporal) (site : Option Site) : (t.annotation site).Tidy :=
  Annotation.tidy_of_nesting (by simp [Entry.nests])

theorem EnumForm.tidy_annotation (e : EnumForm) (site : Option Site) : (e.annotation site).Tidy :=
  Annotation.tidy_of_nesting (by simp [Entry.nests])

theorem Access.tidy_annotation (a : Access) (className : String) :
    (a.annotation className).Tidy :=
  Annotation.tidy_of_nesting (by simp [Entry.nests])

namespace Declaration

theorem Column.tidy_annotation (c : Column) (site : Option Site) : (c.annotation site).Tidy :=
  Annotation.tidy_of_nesting (by simp [Column.entries, Entry.nests])

theorem JoinColumn.tidy_annotation (c : JoinColumn) (site : Option Site) :
    (c.annotation site).Tidy :=
  Annotation.tidy_of_nesting (by simp [JoinColumn.entries, Entry.nests])

theorem OrderColumn.tidy_annotation (c : OrderColumn) (site : Option Site) :
    (c.annotation site).Tidy :=
  Annotation.tidy_of_nesting (by simp [OrderColumn.entries, Entry.nests])

theorem PrimaryKeyJoinColumn.tidy_annotation (c : PrimaryKeyJoinColumn) (site : Option Site) :
    (c.annotation site).Tidy :=
  Annotation.tidy_of_nesting (by simp [PrimaryKeyJoinColumn.entries, Entry.nests])

theorem UniqueConstraint.tidy_annotation (c : UniqueConstraint) : c.annotation.Tidy :=
  Annotation.tidy_of_nesting (by simp [UniqueConstraint.entries, Entry.nests])

theorem JoinColumn.tidy_nested (cs : List JoinColumn) : (Entry.array (nested cs)).Tidy := by
  refine Entry.tidy_array fun a ha => ?_
  obtain ⟨c, -, rfl⟩ := List.mem_map.1 ha
  exact ⟨⟨rfl, by simp [Kind.nestable, annotation, Annotation.ofEntries]⟩, c.tidy_annotation none⟩

theorem UniqueConstraint.tidy_nested (cs : List UniqueConstraint) :
    (Entry.array (cs.map annotation)).Tidy := by
  refine Entry.tidy_array fun a ha => ?_
  obtain ⟨c, -, rfl⟩ := List.mem_map.1 ha
  exact ⟨⟨rfl, by simp [Kind.nestable, annotation, Annotation.ofEntries]⟩, c.tidy_annotation⟩

theorem JoinTable.tidy_annotation (t : JoinTable) (d : Defaults) (site : Option Site) :
    (t.annotation d site).Tidy := by
  refine Annotation.tidy_of_nesting fun p hp hn => ?_
  simp only [JoinTable.entries, List.mem_cons, List.not_mem_nil, or_false] at hp
  rcases hp with rfl | rfl | rfl | rfl | rfl | rfl
  · cases hn
  · cases hn
  · cases hn
  · exact JoinColumn.tidy_nested _
  · exact JoinColumn.tidy_nested _
  · exact UniqueConstraint.tidy_nested _

theorem CollectionTable.tidy_annotation (t : CollectionTable) (d : Defaults)
    (site : Option Site) : (t.annotation d site).Tidy := by
  refine Annotation.tidy_of_nesting fun p hp hn => ?_
  simp only [CollectionTable.entries, List.mem_cons, List.not_mem_nil, or_false] at hp
  rcases hp with rfl | rfl | rfl | rfl | rfl
  · cases hn
  · cases hn
  · cases hn
  · exact JoinColumn.tidy_nested _
  · exact UniqueConstraint.tidy_nested _

theorem AttributeOverride.tidy_annotation (o : AttributeOverride) (site : Option Site) :
    (o.annotation site).Tidy := by
  refine Annotation.tidy_of_nesting fun p hp hn => ?_
  simp only [AttributeOverride.entries, List.mem_cons, List.not_mem_nil, or_false] at hp
  rcases hp with rfl | rfl
  · cases hn
  · refine Entry.tidy_nested fun a ha => ?_
    obtain ⟨c, -, rfl⟩ := Option.map_eq_some_iff.1 ha
    exact ⟨⟨rfl, by simp [Column.annotation, Annotation.ofEntries, Kind.nestable]⟩,
      c.tidy_annotation none⟩

theorem AssociationOverride.tidy_annotation (o : AssociationOverride) (d : Defaults)
    (site : Option Site) : (o.annotation d site).Tidy := by
  refine Annotation.tidy_of_nesting fun p hp hn => ?_
  simp only [AssociationOverride.entries, List.mem_cons, List.not_mem_nil, or_false] at hp
  rcases hp with rfl | rfl | rfl
  · cases hn
  · exact JoinColumn.tidy_nested _
  · refine Entry.tidy_nested fun a ha => ?_
    obtain ⟨t, -, rfl⟩ := Option.map_eq_some_iff.1 ha
    exact ⟨⟨rfl, by simp [JoinTable.annotation, Annotation.ofEntries, Kind.nestable]⟩,
      t.tidy_annotation d none⟩

end Declaration

end MappingMetadata
