import MappingMetadata.Proofs.Declaration.Values
import MappingMetadata.Proofs.Index.Canonical
import MappingMetadata.Proofs.Override.Items

/-!
# The values in an index and in merged overrides

Merging takes fields over from the index as they are, without looking into them. So what holds
throughout merged overrides must hold throughout the index already, and through writing it does
(`Index.Every.writeAll`).
-/

namespace MappingMetadata

variable {P : String → Prop} {Q : Value → Prop}

/-! ## Indexes -/

namespace Index

/-- Every annotation in the index has the property throughout. -/
def Every (Q : Value → Prop) (ix : Index) : Prop := ∀ a ∈ ix.toList, a.Every Q

variable {ix : Index}

theorem every_empty : Every Q empty := fun a ha => by cases ha

theorem Every.enter (h : ix.Every Q) (c : String) : (ix.enter c).Every Q :=
  fun a ha => h a ((ix.toList_enter_perm c).mem_iff.1 ha)

theorem Every.markComplete (h : ix.Every Q) (c : String) : (ix.markComplete c).Every Q :=
  fun a ha => h a ((ix.toList_markComplete_perm c).mem_iff.1 ha)

theorem Every.write (h : ix.Every Q) {a : Annotation} (ha : a.Every Q) : (ix.write a).Every Q := by
  intro b hb
  rcases mem_toList_write hb with rfl | hb
  · exact ha
  · exact h b hb

theorem Every.writeAll (h : ix.Every Q) {as : List Annotation} (has : ∀ a ∈ as, a.Every Q) :
    (ix.writeAll as).Every Q := by
  induction as generalizing ix with
  | nil => exact h
  | cons a as ih =>
    rw [List.forall_mem_cons] at has
    exact ih (h.write has.1) has.2

end Index

/-! ## Overrides -/

namespace Override

variable {f : Family} {ix : Index} {d : Defaults}

theorem every_of_mem_indexed (hix : ix.Every Q) {site : Site} {a : Annotation}
    (ha : a ∈ indexed ix f site) : a.Every Q := by
  have hsite : ∀ k, ∀ b ∈ ix.onSite site.className k site, b.Every Q := fun k b hb =>
    hix b (Index.mem_toList_of_mem_ofKind (List.mem_of_mem_filter hb))
  rcases wrapped_or_single_of_mem_indexed ha with ⟨w, hw, ha⟩ | ha
  · exact (hsite _ w hw).members ha
  · exact hsite _ a ha

variable (h : Entry.Ensures P Q)

include h

theorem Item.every_annotation_declared (o : f.Declared) (d : Defaults) (site : Option Site) :
    (Item.annotation (.declared o : Item f) d site).Every Q := by
  cases f with
  | attributes => exact Declaration.AttributeOverride.every_annotation h o site
  | associations => exact Declaration.AssociationOverride.every_annotation h o d site

/-- What is carried over has a property that it had in the index. -/
theorem Item.every_annotation_of_carry {a : Annotation} {i : Item f} (hi : carry a = .ok i)
    (ha : a.Every Q) (d : Defaults) (site : Option Site) : (i.annotation d site).Every Q := by
  obtain ⟨n, -, rfl⟩ := carry_eq_ok_iff.1 hi
  refine Annotation.every_ofEntries h (List.forall_mem_cons.2 ⟨trivial, fun p hp => ?_⟩)
  obtain ⟨q, hq, rfl⟩ := List.mem_map.1 hp
  rintro _ ⟨⟩
  exact ha.of_field? (field?_of_mem_kept hq)

/-- **Merged overrides have a property throughout that the index has.** -/
theorem every_of_merged (hix : ix.Every Q) {dedupe : Bool} {declared : List f.Declared}
    {site : Site} {a : Annotation}
    (ha : mergedAnnotation f ix d dedupe declared (some site) = .ok (some a)) : a.Every Q := by
  obtain ⟨m, hm, ha⟩ := Outcome.bind_eq_ok_iff.1 ha
  obtain ⟨-, rfl⟩ | ⟨-, -, carried, hcarried, rfl⟩ := merge_eq_ok_iff.1 hm
  · cases ha
  · refine Annotation.every_ofItems h (fun i hi site => ?_) (Except.ok.inj ha)
    rcases List.mem_append.1 hi with hi | hi
    · obtain ⟨o, -, rfl⟩ := List.mem_map.1 hi
      exact Item.every_annotation_declared h o d site
    · obtain ⟨b, hb, hcarry⟩ := Outcome.exists_of_mem_mapM hcarried (mem_of_mem_fresh hi).1
      exact Item.every_annotation_of_carry h hcarry (every_of_mem_indexed hix hb) d site

end Override

end MappingMetadata
