import Mathlib.Data.List.Nodup
import MappingMetadata.Proofs.Entity.Plain
import MappingMetadata.Proofs.Override.Items

/-!
# Merging keeps to the canonical form

The wrapper around merged overrides holds what the document declares, and what an earlier wrapper
or single override in the index held. That its members have names, and different ones, is
therefore a property of the output that rests on the same property of earlier output
(`sound_of_merged`).
-/

namespace MappingMetadata.Override

variable {f : Family} {dedupe : Bool} {ix : Index}

/-- What a canonical index holds of overrides is tidy and has a name that is not blank. -/
theorem named_of_mem_indexed (hix : ix.Canonical dedupe) {site : Site} {a : Annotation}
    (ha : a ∈ indexed ix f site) : a.Tidy ∧ a.Named := by
  have hplaced : ∀ k, ∀ b ∈ ix.onSite site.className k site, b.kind = k ∧ b.Sound dedupe := by
    intro k b hb
    have hb' := List.mem_of_mem_filter hb
    exact ⟨(hix.placed _ k b hb').1, hix.sound b (Index.mem_toList_of_mem_ofKind hb')⟩
  rcases wrapped_or_single_of_mem_indexed ha with ⟨w, hw, ha⟩ | ha
  · obtain ⟨hkind, hsound⟩ := hplaced _ w hw
    exact ⟨(hsound.tidy.members ha).2, (hsound.names f hkind).1 a ha⟩
  · obtain ⟨hkind, hsound⟩ := hplaced _ a ha
    exact ⟨hsound.tidy, hsound.named f hkind⟩

/-- What the items of a merged list have in common. -/
structure Item.Good (d : Defaults) (i : Item f) : Prop where
  regular : i.Regular
  notBlank : ¬ Text.isBlank i.name
  tidy : ∀ site, (i.annotation d site).Tidy

theorem Item.Good.name? {d : Defaults} {i : Item f} (h : i.Good d) (site : Option Site) :
    (i.annotation d site).name? = some i.name := by
  refine name?_annotation h.regular (fun hn => h.notBlank ?_) d site
  rw [hn]
  exact Text.isBlank_empty

theorem Item.Good.sound {d : Defaults} {i : Item f} (h : i.Good d) (site : Option Site) :
    (i.annotation d site).Sound dedupe where
  tidy := h.tidy site
  wrapped k hk := by
    rw [Item.kind_annotation] at hk
    cases f <;> cases hk
  notGlobal g := by
    rw [Item.kind_annotation]
    cases f <;> cases g <;> decide
  named _ _ := ⟨i.name, h.name? site, h.notBlank⟩
  names f' hf' := by
    rw [Item.kind_annotation] at hf'
    cases f <;> cases f' <;> cases hf'

/-- Merging into a canonical index yields good items, with different names when repeated names
are collapsed. -/
theorem good_of_merge (hix : ix.Canonical dedupe) {declared : List f.Declared} {site : Site}
    {m : Merged f} (h : merge f ix dedupe declared (some site) = .ok (some m)) (d : Defaults) :
    (∀ i ∈ m.items, i.Good d) ∧ (dedupe → (m.items.map Item.name).Nodup) := by
  obtain ⟨-, hm⟩ | ⟨-, hdecl, carried, hcarried, hm⟩ := merge_eq_ok_iff.1 h
  · cases hm
  · cases hm
    constructor
    · intro i hi
      rcases List.mem_append.1 hi with hi | hi
      · obtain ⟨o, ho, rfl⟩ := List.mem_map.1 hi
        exact ⟨Or.inl rfl, hdecl o (mem_of_mem_taking ho),
          fun site => Item.tidy_annotation_declared (i := .declared o) rfl d site⟩
      · obtain ⟨a, ha, hc⟩ := Outcome.exists_of_mem_mapM hcarried (mem_of_mem_fresh hi).1
        obtain ⟨htidy, n, hn, hblank⟩ := named_of_mem_indexed hix ha
        obtain ⟨n', hn', hi'⟩ := Item.carry_eq_ok_iff.1 hc
        have hname : i.name = n := by
          rw [hi']
          exact Option.some.inj (hn'.symm.trans hn)
        exact ⟨Or.inr ⟨a, hc⟩, hname ▸ hblank,
          fun site => Item.tidy_annotation_of_carry hc htidy d site⟩
    · rintro rfl
      have hown : ((taking f true declared).map Item.declared).map Item.name =
          (taking f true declared).map f.name := by
        rw [List.map_map]
        rfl
      rw [List.map_append, hown, List.nodup_append]
      refine ⟨nodup_collapse declared, nodup_fresh _ _, fun n hn n' hn' e => ?_⟩
      obtain ⟨i, hi, rfl⟩ := List.mem_map.1 hn'
      exact (mem_of_mem_fresh hi).2 (e ▸ hn)

/-- **Merged overrides are sound.** -/
theorem sound_of_merged (hix : ix.Canonical dedupe) {d : Defaults} {declared : List f.Declared}
    {site : Site} {a : Annotation}
    (h : mergedAnnotation f ix d dedupe declared (some site) = .ok (some a)) :
    a.Sound dedupe := by
  obtain ⟨m, hm, h⟩ := Outcome.bind_eq_ok_iff.1 h
  cases m with
  | none => cases h
  | some m =>
    obtain ⟨hgood, hnodup⟩ := good_of_merge hix hm d
    have hof : m.annotation d = some a := Except.ok.inj h
    rcases Annotation.ofItems_eq_some hof with ⟨i, hi, rfl⟩ | ⟨hlen, rfl⟩
    · exact (hgood i (hi ▸ List.mem_singleton_self i)).sound _
    · have hmembers : ∀ b ∈ m.items.map fun i => i.annotation d none,
          ∃ i ∈ m.items, i.annotation d none = b := fun b hb => List.mem_map.1 hb
      have hnames : (m.items.map fun i => i.annotation d none).map Annotation.name? =
          (m.items.map Item.name).map some := by
        rw [List.map_map, List.map_map]
        exact List.map_congr_left fun i hi => (hgood i hi).name? none
      refine Annotation.sound_wrapper (k := f.scalar) (by cases f <;> rfl)
        (by cases f <;> simp [Family.scalar, Kind.nestable]) (by simpa using hlen) ?_ ?_
      · intro b hb
        obtain ⟨i, hi, rfl⟩ := hmembers b hb
        exact ⟨Item.kind_annotation i d none, Item.site_annotation i d none, (hgood i hi).tidy none⟩
      · intro f' _
        refine ⟨fun b hb => ?_, fun hd => ?_⟩
        · obtain ⟨i, hi, rfl⟩ := hmembers b hb
          exact ⟨i.name, (hgood i hi).name? none, (hgood i hi).notBlank⟩
        · rw [hnames]
          exact List.Nodup.map (fun _ _ => Option.some.inj) (hnodup hd)

end MappingMetadata.Override
