import MappingMetadata.Entity.Writes
import MappingMetadata.Proofs.Annotation.Values
import MappingMetadata.Proofs.Globals.Registrations

/-!
# The values that declarations state

Whatever a declaration states comes from entries, so its annotation has `Q` throughout as soon as
entries ensure `Q` (`Entry.Ensures`). Only four kinds of declarations name classes: associations,
native queries, entity results, and result-set mappings by way of these. Each looks the class up
first, so it has `P` when the class path yields such classes only (`ClassPath.Within`).
-/

namespace MappingMetadata

variable {P : String → Prop} {Q : Value → Prop}

/-! ## Class paths -/

namespace ClassPath

variable {path : ClassPath} {d : Defaults}

/-- Every class that can be loaded has the property. -/
def Within (P : String → Prop) (path : ClassPath) : Prop := ∀ name c, path name = some c → P c

theorem Within.resolve (h : path.Within P) {name role c : String}
    (hc : path.resolve d name role = .ok c) : P c := by
  unfold ClassPath.resolve at hc
  cases hp : path (d.qualify name) with
  | none => simp [hp] at hc
  | some c' =>
    rw [hp] at hc
    cases hc
    exact h _ _ hp

theorem Within.resolve? (h : path.Within P) {name : Option String} {role : String}
    {c : Option String} (hc : path.resolve? d name role = .ok c) : ∀ n ∈ c, P n := by
  unfold ClassPath.resolve? at hc
  cases hn : name.filter fun c => !c.isEmpty with
  | none =>
    rw [hn] at hc
    cases hc
    exact nofun
  | some n =>
    rw [hn] at hc
    obtain ⟨m, hm, rfl⟩ := Outcome.map_eq_ok_iff.1 hc
    rintro _ ⟨⟩
    exact h.resolve hm

/-- A strict session loads known classes only. -/
theorem within_ofSettings {settings : Settings} (h : settings.strictClasses) :
    (ofSettings settings).Within (· ∈ settings.knownClasses) := by
  intro name c hc
  rw [ofSettings, if_pos h, only] at hc
  obtain ⟨hmem, hc⟩ := Option.ite_none_right_eq_some.1 hc
  cases hc
  exact hmem

end ClassPath

open Annotation

section

variable (h : Entry.Ensures P Q)

include h

/-! ## Choices and columns -/

theorem Temporal.every_annotation (t : Temporal) (site : Option Site) :
    (t.annotation site).Every Q :=
  every_ofEntries h (by simp [Entry.Meets])

theorem EnumForm.every_annotation (e : EnumForm) (site : Option Site) :
    (e.annotation site).Every Q :=
  every_ofEntries h (by simp [Entry.Meets])

theorem Access.every_annotation (a : Access) (className : String) :
    (a.annotation className).Every Q :=
  every_ofEntries h (by simp [Entry.Meets])

namespace Declaration

theorem Column.every_annotation (c : Column) (site : Option Site) : (c.annotation site).Every Q :=
  every_ofEntries h (by simp [Column.entries, Entry.Meets])

theorem JoinColumn.every_annotation (c : JoinColumn) (site : Option Site) :
    (c.annotation site).Every Q :=
  every_ofEntries h (by simp [JoinColumn.entries, Entry.Meets])

theorem JoinColumn.every_nested (cs : List JoinColumn) : ∀ a ∈ nested cs, a.Every Q :=
  List.forall_mem_map.2 fun c _ => c.every_annotation h none

theorem OrderColumn.every_annotation (c : OrderColumn) (site : Option Site) :
    (c.annotation site).Every Q :=
  every_ofEntries h (by simp [OrderColumn.entries, Entry.Meets])

theorem PrimaryKeyJoinColumn.every_annotation (c : PrimaryKeyJoinColumn) (site : Option Site) :
    (c.annotation site).Every Q :=
  every_ofEntries h (by simp [PrimaryKeyJoinColumn.entries, Entry.Meets])

/-! ## Tables and overrides -/

theorem UniqueConstraint.every_annotations (cs : List UniqueConstraint) :
    ∀ a ∈ cs.map UniqueConstraint.annotation, a.Every Q :=
  List.forall_mem_map.2 fun _ _ =>
    every_ofEntries h (by simp [UniqueConstraint.entries, Entry.Meets])

theorem JoinTable.every_annotation (t : JoinTable) (d : Defaults) (site : Option Site) :
    (t.annotation d site).Every Q := by
  refine every_ofEntries h ?_
  simp only [JoinTable.entries, List.forall_mem_cons]
  exact ⟨trivial, trivial, trivial, JoinColumn.every_nested h _, JoinColumn.every_nested h _,
    UniqueConstraint.every_annotations h _, List.forall_mem_nil _⟩

theorem CollectionTable.every_annotation (t : CollectionTable) (d : Defaults)
    (site : Option Site) : (t.annotation d site).Every Q := by
  refine every_ofEntries h ?_
  simp only [CollectionTable.entries, List.forall_mem_cons]
  exact ⟨trivial, trivial, trivial, JoinColumn.every_nested h _,
    UniqueConstraint.every_annotations h _, List.forall_mem_nil _⟩

theorem AttributeOverride.every_annotation (o : AttributeOverride) (site : Option Site) :
    (o.annotation site).Every Q := by
  refine every_ofEntries h ?_
  simp only [AttributeOverride.entries, List.forall_mem_cons]
  refine ⟨trivial, fun a ha => ?_, List.forall_mem_nil _⟩
  obtain ⟨c, -, rfl⟩ := Option.map_eq_some_iff.1 ha
  exact c.every_annotation h none

theorem AssociationOverride.every_annotation (o : AssociationOverride) (d : Defaults)
    (site : Option Site) : (o.annotation d site).Every Q := by
  refine every_ofEntries h ?_
  simp only [AssociationOverride.entries, List.forall_mem_cons]
  refine ⟨trivial, JoinColumn.every_nested h _, fun a ha => ?_, List.forall_mem_nil _⟩
  obtain ⟨t, -, rfl⟩ := Option.map_eq_some_iff.1 ha
  exact t.every_annotation h d none

/-! ## Generators and queries -/

theorem TableGenerator.every_annotation (g : TableGenerator) : g.annotation.Every Q := by
  refine every_ofEntries h ?_
  simp only [TableGenerator.entries, List.forall_mem_cons]
  exact ⟨trivial, trivial, trivial, trivial, trivial, trivial, trivial, trivial, trivial,
    UniqueConstraint.every_annotations h _, List.forall_mem_nil _⟩

theorem SequenceGenerator.every_annotation (g : SequenceGenerator) : g.annotation.Every Q :=
  every_ofEntries h (by simp [SequenceGenerator.entries, Entry.Meets])

theorem QueryHint.every_annotations (hs : List QueryHint) :
    ∀ a ∈ hs.map QueryHint.annotation, a.Every Q :=
  List.forall_mem_map.2 fun _ _ => every_ofEntries h (by simp [Entry.Meets])

theorem NamedQuery.every_annotation (q : NamedQuery) : q.annotation.Every Q := by
  refine every_ofEntries h ?_
  simp only [NamedQuery.entries, List.forall_mem_cons]
  exact ⟨trivial, trivial, trivial, QueryHint.every_annotations h _, List.forall_mem_nil _⟩

theorem FieldResult.every_annotations (rs : List FieldResult) :
    ∀ a ∈ rs.map FieldResult.annotation, a.Every Q :=
  List.forall_mem_map.2 fun _ _ => every_ofEntries h (by simp [Entry.Meets])

theorem ColumnResult.every_annotations (rs : List ColumnResult) :
    ∀ a ∈ rs.map ColumnResult.annotation, a.Every Q :=
  List.forall_mem_map.2 fun _ _ => every_ofEntries h (by simp [Entry.Meets])

/-! ## Declarations that name classes -/

variable {path : ClassPath} (hpath : path.Within P) {d : Defaults}

include hpath

theorem AssociationAttribute.every_annotation {a : AssociationAttribute} {site : Site}
    {b : Annotation} (hb : a.annotation path d site = .ok (some b)) : b.Every Q := by
  unfold AssociationAttribute.annotation at hb
  cases htype : a.associationType with
  | none =>
    simp only [htype] at hb
    split at hb <;> cases hb
  | some type =>
    rw [htype] at hb
    obtain ⟨target, htarget, hb⟩ := Outcome.bind_eq_ok_iff.1 hb
    cases hb
    refine every_ofEntries h ?_
    simp only [AssociationAttribute.entries, List.forall_mem_cons]
    exact ⟨hpath.resolve? htarget, trivial, List.forall_mem_nil _⟩

theorem NamedNativeQuery.every_annotation {q : NamedNativeQuery} {a : Annotation}
    (ha : q.annotation path d = .ok a) : a.Every Q := by
  obtain ⟨resultClass, hclass, ha⟩ := Outcome.bind_eq_ok_iff.1 ha
  cases ha
  refine every_ofEntries h ?_
  simp only [NamedNativeQuery.entries, List.forall_mem_cons]
  exact ⟨trivial, trivial, trivial, hpath.resolve? hclass, QueryHint.every_annotations h _,
    List.forall_mem_nil _⟩

theorem EntityResult.every_annotation {r : EntityResult} {a : Annotation}
    (ha : r.annotation path d = .ok a) : a.Every Q := by
  obtain ⟨entityClass, hclass, ha⟩ := Outcome.bind_eq_ok_iff.1 ha
  cases ha
  refine every_ofEntries h ?_
  simp only [EntityResult.entries, List.forall_mem_cons]
  exact ⟨trivial, FieldResult.every_annotations h _, hpath.resolve? hclass, List.forall_mem_nil _⟩

theorem ResultSetMapping.every_annotation {m : ResultSetMapping} {a : Annotation}
    (ha : m.annotation path d = .ok a) : a.Every Q := by
  obtain ⟨entities, hentities, ha⟩ := Outcome.bind_eq_ok_iff.1 ha
  cases ha
  refine every_ofEntries h ?_
  simp only [ResultSetMapping.entries, List.forall_mem_cons]
  refine ⟨trivial, fun b hb => ?_, ColumnResult.every_annotations h _, List.forall_mem_nil _⟩
  obtain ⟨r, -, hr⟩ := Outcome.exists_of_mem_mapM hentities hb
  exact EntityResult.every_annotation h hpath hr

/-- Whatever a document declares globally has `Q` throughout. -/
theorem GlobalDeclarations.every_annotations {g : GlobalDeclarations} {k : GlobalKind}
    {a : Annotation} (ha : (k, Except.ok a) ∈ g.annotations path d) : a.Every Q := by
  simp only [GlobalDeclarations.annotations, List.mem_append, List.mem_map, Prod.mk.injEq] at ha
  rcases ha with (((⟨t, -, rfl, ha⟩ | ⟨s, -, rfl, ha⟩) | ⟨q, -, rfl, ha⟩) | ⟨q, -, rfl, ha⟩) |
    ⟨m, -, rfl, ha⟩
  · cases ha
    exact t.every_annotation h
  · cases ha
    exact s.every_annotation h
  · cases ha
    exact q.every_annotation h
  · exact NamedNativeQuery.every_annotation h hpath ha
  · exact ResultSetMapping.every_annotation h hpath ha

theorem GlobalDeclarations.every_build {g : GlobalDeclarations} {bs : List BuiltGlobal}
    (hbs : g.build path d = .ok bs) : ∀ b ∈ bs, b.annotation.Every Q := by
  intro b hb
  obtain ⟨⟨k, result⟩, hmem, hresult⟩ := Outcome.exists_of_mem_mapM hbs hb
  obtain ⟨a, rfl, hnamed⟩ := Outcome.bind_eq_ok_iff.1 hresult
  obtain ⟨name, -, rfl⟩ := BuiltGlobal.named_eq_ok hnamed
  exact GlobalDeclarations.every_annotations h hpath hmem

end Declaration

end

end MappingMetadata
