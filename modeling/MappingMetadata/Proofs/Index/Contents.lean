import MappingMetadata.Proofs.Index.Slots

/-!
# The contents of an index

`Index.toList` runs through all annotations, class by class and kind by kind; `Index.ofKind` is
the view by class and kind. `mem_toList_iff` ties the two together. Entering a class changes
nothing in the contents, adding an annotation adds it to them, and removing leaves a part of them.
-/

namespace MappingMetadata

theorem ClassEntry.mem_toList_iff (e : ClassEntry) (a : Annotation) :
    a ∈ e.toList ↔ ∃ k, a ∈ e.ofKind k := by
  simp only [toList, List.mem_flatten, Dict.mem_values_iff, ofKind]
  constructor
  · rintro ⟨as, ⟨k, hk⟩, ha⟩
    exact ⟨k, by rw [hk]; exact ha⟩
  · rintro ⟨k, ha⟩
    cases hk : e.annotations.get? k with
    | none => simp [hk] at ha
    | some as => exact ⟨as, ⟨k, hk⟩, by simpa [hk] using ha⟩

theorem ClassEntry.toList_eq_flatMap (e : ClassEntry) :
    e.toList = e.annotations.entries.flatMap Prod.snd := by
  simp [toList, Dict.values, List.flatMap_def]

theorem ClassEntry.toList_push_perm (e : ClassEntry) (a : Annotation) :
    (e.push a).toList.Perm (e.toList ++ [a]) := by
  rw [toList_eq_flatMap, toList_eq_flatMap]
  refine Assoc.flatMap_put_perm id e.annotations.entries a.kind (e.ofKind a.kind ++ [a]) [a] ?_
  rw [Option.map_id]
  exact List.Perm.refl _

theorem ClassEntry.toList_removeAt_sublist (e : ClassEntry) (site : Site) (k : Kind) :
    (e.removeAt site k).toList.Sublist e.toList := by
  rw [toList_eq_flatMap, toList_eq_flatMap]
  simp only [removeAt, Dict.modify]
  cases hk : e.annotations.get? k with
  | none => exact List.Sublist.refl _
  | some as => exact Assoc.flatMap_put_sublist id e.annotations.entries hk List.filter_sublist

namespace Index

theorem mem_toList_iff (ix : Index) (a : Annotation) :
    a ∈ ix.toList ↔ ∃ c k, a ∈ ix.ofKind c k := by
  simp only [toList, List.mem_flatMap, Dict.mem_values_iff, ClassEntry.mem_toList_iff, ofKind_eq,
    entry?]
  constructor
  · rintro ⟨e, ⟨c, hc⟩, k, ha⟩
    exact ⟨c, k, by rw [hc]; exact ha⟩
  · rintro ⟨c, k, ha⟩
    cases hc : ix.classes.get? c with
    | none => simp [hc] at ha
    | some e => exact ⟨e, ⟨c, hc⟩, k, by simpa [hc] using ha⟩

theorem mem_toList_of_mem_ofKind {ix : Index} {c : String} {k : Kind} {a : Annotation}
    (h : a ∈ ix.ofKind c k) : a ∈ ix.toList :=
  (mem_toList_iff ix a).2 ⟨c, k, h⟩

theorem toList_eq_flatMap (ix : Index) :
    ix.toList = ix.classes.entries.flatMap fun p => p.2.toList := by
  simp [toList, Dict.values, List.flatMap_map]

theorem toList_put_perm (ix : Index) (c : String) (e : ClassEntry) (more : List Annotation)
    (h : e.toList.Perm (((ix.entry? c).getD {}).toList ++ more)) :
    (⟨ix.classes.put c e⟩ : Index).toList.Perm (ix.toList ++ more) := by
  rw [toList_eq_flatMap, toList_eq_flatMap]
  refine Assoc.flatMap_put_perm ClassEntry.toList ix.classes.entries c e more ?_
  refine h.trans (List.Perm.append_right _ (List.Perm.of_eq ?_))
  change ((ix.classes.get? c).getD {}).toList = ((ix.classes.get? c).map ClassEntry.toList).getD []
  cases ix.classes.get? c <;> rfl

theorem toList_enter_perm (ix : Index) (c : String) : (ix.enter c).toList.Perm ix.toList := by
  unfold enter
  cases hc : ix.entry? c with
  | some e => exact List.Perm.refl _
  | none => simpa using toList_put_perm ix c {} [] (by rw [hc]; exact List.Perm.refl _)

theorem toList_markComplete_perm (ix : Index) (c : String) :
    (ix.markComplete c).toList.Perm ix.toList := by
  have h := toList_put_perm ix c { (ix.entry? c).getD {} with metadataComplete := true } []
    (by rw [List.append_nil]; exact List.Perm.refl _)
  rwa [List.append_nil] at h

theorem toList_push_perm (ix : Index) {a : Annotation} {site : Site} (h : a.site = some site) :
    (ix.push a).toList.Perm (ix.toList ++ [a]) := by
  rw [show ix.push a = ⟨ix.classes.put site.className
    (((ix.entry? site.className).getD {}).push a)⟩ by rw [push, h]]
  exact toList_put_perm ix _ _ _ (ClassEntry.toList_push_perm _ a)

theorem toList_removeAt_sublist (ix : Index) (site : Site) (k : Kind) :
    (ix.removeAt site k).toList.Sublist ix.toList := by
  rw [toList_eq_flatMap, toList_eq_flatMap]
  simp only [removeAt, Dict.modify]
  cases hc : ix.classes.get? site.className with
  | none => exact List.Sublist.refl _
  | some e =>
    exact Assoc.flatMap_put_sublist ClassEntry.toList ix.classes.entries hc
      (ClassEntry.toList_removeAt_sublist e site k)

theorem toList_foldl_removeAt_sublist (ks : List Kind) (ix : Index) (site : Site) :
    (ks.foldl (fun ix k => ix.removeAt site k) ix).toList.Sublist ix.toList := by
  induction ks generalizing ix with
  | nil => exact List.Sublist.refl _
  | cons k ks ih => exact (ih _).trans (toList_removeAt_sublist ix site k)

end Index

end MappingMetadata
