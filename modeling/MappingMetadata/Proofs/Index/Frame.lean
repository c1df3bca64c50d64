import MappingMetadata.Proofs.Index.Slots

/-!
# How far writes reach

A write touches the lists of its own class and slot, and no others
(`Index.ofKind_writeAll_of_not_touches`). What it leaves in a list depends only on what was in that
list.

**Theorem (`Index.ofKind_writeAll_comm`).** Two lists of writes that touch no list of the index in
common leave the same behind in either order.

A place that has been written to stays occupied, by the annotation or by one that was written there
later (`Index.occupied_writeAll`).
-/

namespace MappingMetadata

/-- Would writing the annotation change a list of the index? -/
def Annotation.Touches (a : Annotation) (c : String) (k : Kind) : Prop :=
  a.site.map Site.className = some c ∧ a.kind.slot = k.slot

namespace Index

/-! ## What is not touched -/

theorem ofKind_write_of_not_touches (ix : Index) {a : Annotation} {c : String} {k : Kind}
    (h : ¬ a.Touches c k) : (ix.write a).ofKind c k = ix.ofKind c k := by
  have hcovers : ∀ site, a.covers c k site = false := by
    intro site
    unfold Annotation.covers
    cases hs : a.site with
    | none => rfl
    | some s =>
      by_cases hc : s.className = c
      · have hslot : ¬ k.slot = a.kind.slot := fun e => h ⟨by rw [hs, Option.map_some, hc], e.symm⟩
        simp [hslot]
      · simp [hc]
  have hbelongs : ¬ a.belongs c k := by
    unfold Annotation.belongs
    rw [Bool.and_eq_true, decide_eq_true_eq, decide_eq_true_eq]
    exact fun ⟨hc, hk⟩ => h ⟨hc, by rw [hk]⟩
  rw [ofKind_write, if_neg hbelongs, List.append_nil]
  simp [hcovers]

/-- Writes leave the lists alone that they do not touch. -/
theorem ofKind_writeAll_of_not_touches (ix : Index) {as : List Annotation} {c : String} {k : Kind}
    (h : ∀ a ∈ as, ¬ a.Touches c k) : (ix.writeAll as).ofKind c k = ix.ofKind c k := by
  induction as generalizing ix with
  | nil => rfl
  | cons a as ih =>
    rw [List.forall_mem_cons] at h
    rw [writeAll_cons, ih _ h.2, ofKind_write_of_not_touches ix h.1]

/-- **Writes that touch no list in common can be made in either order.** -/
theorem ofKind_writeAll_comm (ix : Index) {as bs : List Annotation} {c : String} {k : Kind}
    (h : ∀ a ∈ as, ∀ b ∈ bs, a.Touches c k → ¬ b.Touches c k) :
    (ix.writeAll (as ++ bs)).ofKind c k = (ix.writeAll (bs ++ as)).ofKind c k := by
  rw [writeAll_append, writeAll_append]
  by_cases has : ∃ a ∈ as, a.Touches c k
  · obtain ⟨a, ha, htouch⟩ := has
    have hbs : ∀ b ∈ bs, ¬ b.Touches c k := fun b hb => h a ha b hb htouch
    rw [ofKind_writeAll_of_not_touches _ hbs]
    exact (ofKind_writeAll_congr (ofKind_writeAll_of_not_touches ix hbs) as).symm
  · have has : ∀ a ∈ as, ¬ a.Touches c k := fun a ha htouch => has ⟨a, ha, htouch⟩
    rw [ofKind_writeAll_of_not_touches (ix.writeAll bs) has]
    exact ofKind_writeAll_congr (ofKind_writeAll_of_not_touches ix has) bs

/-! ## Places that are occupied -/

/-- Something stands on the site of the annotation in its slot. -/
def Occupied (ix : Index) (a : Annotation) : Prop :=
  ∃ site k, a.site = some site ∧ k.slot = a.kind.slot ∧ ix.onSite site.className k site ≠ []

theorem occupied_write (ix : Index) {a : Annotation} {site : Site} (h : a.site = some site) :
    (ix.write a).Occupied a := by
  refine ⟨site, a.kind, h, rfl, ?_⟩
  rw [onSite_write, if_pos ⟨h, rfl⟩, if_pos rfl]
  exact List.cons_ne_nil _ _

/-- A later write may take the place of an annotation, but does not clear it. -/
theorem Occupied.write {ix : Index} {a : Annotation} (h : ix.Occupied a) (b : Annotation) :
    (ix.write b).Occupied a := by
  obtain ⟨site, k, hsite, hslot, hne⟩ := h
  by_cases hb : b.site = some site ∧ b.kind.slot = k.slot
  · refine ⟨site, b.kind, hsite, hb.2.trans hslot, ?_⟩
    rw [onSite_write, if_pos ⟨hb.1, rfl⟩, if_pos rfl]
    exact List.cons_ne_nil _ _
  · refine ⟨site, k, hsite, hslot, ?_⟩
    rw [onSite_write, if_neg hb]
    exact hne

theorem Occupied.writeAll {ix : Index} {a : Annotation} (h : ix.Occupied a)
    (bs : List Annotation) : (ix.writeAll bs).Occupied a := by
  induction bs generalizing ix with
  | nil => exact h
  | cons b bs ih => exact ih (h.write b)

/-- Every place that has been written to is occupied afterwards. -/
theorem occupied_writeAll (ix : Index) {as : List Annotation} {a : Annotation} (ha : a ∈ as)
    {site : Site} (h : a.site = some site) : (ix.writeAll as).Occupied a := by
  induction as generalizing ix with
  | nil => cases ha
  | cons b as ih =>
    rcases List.mem_cons.1 ha with rfl | ha
    · exact (occupied_write ix h).writeAll as
    · exact ih _ ha

end Index

end MappingMetadata
