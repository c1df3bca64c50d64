import MappingMetadata.Proofs.Override.Exact
import MappingMetadata.Proofs.Override.Names

/-!
# The names in the annotation of merged overrides

Merged overrides leave one annotation, and the next merge knows them only by the names that it
reads there.

**Theorem (`names_of_merged`).** The names read back are those of the merged list, in order. The
one exception is the empty text: an index may hold an override of that name, and merging carries
it over, but an annotation states nothing that is empty. So the override is left without a name,
and every later merge on the site fails (`empty_name_is_lost`). Declared names are never empty;
whether there is such an override can be told from the index before.
-/

namespace MappingMetadata.Override

variable {f : Family}

theorem map_name?_annotations {items : List (Item f)} (h : ∀ i ∈ items, i.Regular) (d : Defaults)
    (site : Option Site) :
    (items.map fun i => i.annotation d site).map Annotation.name? =
      (items.map Item.name).map fun n => if n = "" then none else some n := by
  rw [List.map_map, List.map_map]
  exact List.map_congr_left fun i hi => Item.name?_annotation_eq (h i hi) d site

/-- Merged overrides are declared, or carried over from some annotation. -/
theorem regular_of_mem_mergedItems {ix : Index} {site : Site} {held : List (Item f)}
    (h : (indexed ix f site).mapM Item.carry = .ok held) {dedupe : Bool}
    {declared : List f.Declared} : ∀ i ∈ mergedItems dedupe declared held, i.Regular := by
  intro i hi
  rcases List.mem_append.1 hi with hi | hi
  · obtain ⟨o, -, rfl⟩ := List.mem_map.1 hi
    exact Or.inl rfl
  · obtain ⟨a, -, ha⟩ := Outcome.exists_of_mem_mapM h (mem_of_mem_fresh hi).1
    exact Or.inr ⟨a, ha⟩

/-- The form of the annotation for merged overrides, and the names in it. -/
theorem parts_of_ofItems {items : List (Item f)} (hitems : ∀ i ∈ items, i.Regular) {d : Defaults}
    {site : Option Site} {a : Annotation}
    (h : Annotation.ofItems f.wrapper (fun i site => i.annotation d site) site items = some a) :
    ((items.length = 1 ∧ a.kind = f.scalar ∧ a.site = site ∧ parts f a = [a]) ∨
      (2 ≤ items.length ∧ a = .wrapper f.wrapper site (parts f a) ∧
        ∀ b ∈ parts f a, b.kind = f.scalar ∧ b.site = none)) ∧
      (parts f a).map Annotation.name? =
        (items.map Item.name).map fun n => if n = "" then none else some n := by
  rcases Annotation.ofItems_eq_some h with ⟨i, rfl, rfl⟩ | ⟨hlength, rfl⟩
  · rw [parts_item]
    exact ⟨Or.inl ⟨rfl, i.kind_annotation d site, i.site_annotation d site, rfl⟩,
      map_name?_annotations hitems d site⟩
  · rw [parts_wrapper]
    refine ⟨Or.inr ⟨hlength, rfl, fun b hb => ?_⟩, map_name?_annotations hitems d none⟩
    obtain ⟨i, -, rfl⟩ := List.mem_map.1 hb
    exact ⟨i.kind_annotation d none, i.site_annotation d none⟩

/-- Whether declared overrides can be merged depends on the overrides of the index only. -/
theorem merge_of_names (ix : Index) (dedupe : Bool) {declared : List f.Declared} (site : Site)
    (hne : declared ≠ []) (hnames : ∀ o ∈ declared, ¬ Text.isBlank (f.name o)) :
    ((∀ a ∈ indexed ix f site, a.name? ≠ none) →
        ∃ m, merge f ix dedupe declared (some site) = .ok (some m)) ∧
      ((∃ a ∈ indexed ix f site, a.name? = none) →
        merge f ix dedupe declared (some site) = .error (.missingName f.scalar)) := by
  have hmerge : merge f ix dedupe declared (some site) = _ :=
    mergeFrom_of_names ix.ofKind dedupe site hne hnames
  rw [← indexed] at hmerge
  constructor
  · intro hnamed
    obtain ⟨items, hitems⟩ := exists_mapM_carry (f := f) hnamed
    rw [hmerge, hitems]
    exact ⟨_, rfl⟩
  · intro hnameless
    rw [hmerge, mapM_carry_of_nameless hnameless]
    rfl

/-- **The names read back from merged overrides.** They are those of the merged list, except that
an override with the empty name has none. With no such override, overrides can be merged into the
result again; with one, never. -/
theorem names_of_merged {ix : Index} {dedupe : Bool} {declared : List f.Declared} {site : Site}
    {m : Merged f} (h : merge f ix dedupe declared (some site) = .ok (some m)) (d : Defaults) :
    ∃ a, m.annotation d = some a ∧
      ((m.items.length = 1 ∧ a.kind = f.scalar ∧ a.site = some site ∧ parts f a = [a]) ∨
        (2 ≤ m.items.length ∧ a = .wrapper f.wrapper (some site) (parts f a) ∧
          ∀ b ∈ parts f a, b.kind = f.scalar ∧ b.site = none)) ∧
      (parts f a).map Annotation.name? =
        (m.names.map fun n => if n = "" then none else some n) ∧
      ("" ∈ m.names ↔ ∃ b ∈ indexed ix f site, b.name? = some "") ∧
      ∀ (jx : Index) (dedupe' : Bool) (again : List f.Declared), again ≠ [] →
        (∀ o ∈ again, ¬ Text.isBlank (f.name o)) →
        ("" ∉ m.names →
          ∃ m', merge f (jx.replace a f.kinds) dedupe' again (some site) = .ok (some m')) ∧
        ("" ∈ m.names → merge f (jx.replace a f.kinds) dedupe' again (some site) =
          .error (.missingName f.scalar)) := by
  obtain ⟨-, hm⟩ | ⟨hne, hnames, held, hheld, hm⟩ := merge_eq_ok_iff.1 h
  · cases hm
  obtain rfl : m = ⟨site, mergedItems dedupe declared held⟩ := Option.some.inj hm
  have hitems : mergedItems dedupe declared held ≠ [] := mergedItems_ne_nil hne held
  obtain ⟨a, ha⟩ := exists_ofItems hitems d (some site)
  obtain ⟨hform, hread⟩ := parts_of_ofItems (regular_of_mem_mergedItems hheld) ha
  have hempty : "" ∉ declared.map f.name := by
    intro he
    obtain ⟨o, ho, hn⟩ := List.mem_map.1 he
    exact hnames o ho (by rw [hn]; exact Text.isBlank_empty)
  refine ⟨a, ha, hform, hread, ?_, fun jx dedupe' again hagain hnonblank => ?_⟩
  · rw [Merged.names, mem_names_mergedItems_iff, names_of_carried hheld, List.mem_filterMap]
    exact ⟨fun he => he.resolve_left hempty, Or.inr⟩
  · have hindexed := indexed_replace_of_occupies jx (occupies_of_ofItems ha)
    -- A name cannot be read back exactly where it is empty.
    have hnone : (∃ b ∈ parts f a, b.name? = none) ↔
        "" ∈ (mergedItems dedupe declared held).map Item.name := by
      rw [← List.mem_map (f := Annotation.name?), hread, List.mem_map]
      simp
    obtain ⟨hok, herror⟩ :=
      merge_of_names (jx.replace a f.kinds) dedupe' site hagain hnonblank
    rw [hindexed] at hok herror
    exact ⟨fun he => hok fun b hb hname => he (hnone.1 ⟨b, hb, hname⟩),
      fun he => herror (hnone.2 he)⟩

/-- Names that are stated as a class or as a constant, or are blank, are read back as texts. -/
theorem names_of_merged_odd_values :
    let site : Site := .onField "Order" "address"
    let named := fun v : Value => (⟨.attributeOverride, some site, [("name", v)]⟩ : Annotation)
    let ix : Index := .ofList [named (.classRef "Zip"), named (.constant "Part" "CITY"),
      named (.string " ")]
    let declared : List (Family.Declared .attributes) := [{ name := "street" }]
    ∃ m a, merge .attributes ix true declared (some site) = .ok (some m) ∧
      m.annotation {} = some a ∧ m.names = ["street", "Zip", "CITY", " "] ∧
      (parts .attributes a).map Annotation.name? = m.names.map some := by
  intro site named ix declared
  have hmerge : merge .attributes ix true declared (some site) = .ok (some _) := rfl
  obtain ⟨a, ha, -, hread, -⟩ := names_of_merged hmerge {}
  exact ⟨_, a, hmerge, ha, by decide +kernel, hread.trans (by decide +kernel)⟩

/-- **An empty name is lost.** Merging carries an override over whose name is empty, and returns
the name; the annotation has none. The next merge, of the same overrides, fails. -/
theorem empty_name_is_lost :
    let site : Site := .onClass "Order"
    let ix : Index := .ofList [⟨.attributeOverride, some site, [("name", .string "")]⟩]
    let declared : List (Family.Declared .attributes) := [{ name := "zip" }]
    ∃ m a, merge .attributes ix true declared (some site) = .ok (some m) ∧
      m.annotation {} = some a ∧ m.names = ["zip", ""] ∧
      (parts .attributes a).map Annotation.name? = [some "zip", none] ∧
      merge .attributes (ix.replace a (Family.kinds .attributes)) true declared (some site) =
        .error (.missingName .attributeOverride) :=
  ⟨_, _, rfl, rfl, by decide +kernel, by decide +kernel, rfl⟩

end MappingMetadata.Override
