import MappingMetadata.Proofs.Override.Holding

/-!
# The override names that a merge leaves

A merge reads the members of the first wrapper on a site and the single overrides there
(`indexed`). The write that follows removes from the site whatever stands there (`standing`):
every single override, and every wrapper.

**Theorem (`mem_names_replace_merged`).** After the write the names on the site are those that the
document declares and those that the merge has read, no others. So nothing is lost as long as
there is one wrapper at most; where there are several, the names that only a further wrapper holds
are gone (`further_wrapper_is_lost`).
-/

namespace MappingMetadata.Override

variable {f : Family}

/-! ## What stands on a site -/

/-- The overrides of a site in the index: the members of all its wrappers, then the single ones. -/
def standing (ix : Index) (f : Family) (site : Site) : List Annotation :=
  (ix.onSite site.className f.wrapper site).flatMap Annotation.members ++
    ix.onSite site.className f.scalar site

/-- The names by which overrides can be told; an empty text is none. -/
def namesIn (as : List Annotation) : List String :=
  (as.filterMap Annotation.name?).filter fun n => n ≠ ""

theorem standing_congr {ix ix' : Index} (h : ∀ c k, ix'.ofKind c k = ix.ofKind c k)
    (site : Site) : standing ix' f site = standing ix f site := by
  unfold standing Index.onSite
  rw [h, h]

/-- Where there is one wrapper at most, a merge reads all that stands on the site. -/
theorem standing_eq_indexed {ix : Index} {site : Site}
    (h : (ix.onSite site.className f.wrapper site).length ≤ 1) :
    standing ix f site = indexed ix f site := by
  rw [standing, indexed_eq]
  generalize ix.onSite site.className f.wrapper site = wrappers at h
  match wrappers with
  | [] => rfl
  | [w] =>
    rw [List.flatMap_singleton]
    rfl
  | w :: w' :: rest => simp at h

theorem standing_write_of_occupies (ix : Index) {a : Annotation} {site : Site}
    (h : Occupies f site a) : standing (ix.write a) f site = parts f a := by
  have hone : ((ix.write a).onSite site.className f.wrapper site).length ≤ 1 := by
    rw [Index.onSite_write, if_pos ⟨h.1, h.2.trans (slot_eq_scalar_iff.2 (Or.inr rfl)).symm⟩]
    split
    · exact Nat.le_refl 1
    · exact Nat.zero_le 1
  rw [standing_eq_indexed hone, indexed_write_of_occupies ix h]

theorem standing_writeAll_of_not_occupies (ix : Index) {as : List Annotation} {site : Site}
    (h : ∀ a ∈ as, ¬ Occupies f site a) :
    standing (ix.writeAll as) f site = standing ix f site := by
  unfold standing
  rw [onSite_writeAll_of_not_occupies ix h (slot_eq_scalar_iff.2 (Or.inr rfl)),
    onSite_writeAll_of_not_occupies ix h (slot_eq_scalar_iff.2 (Or.inl rfl))]

/-! ## Names -/

theorem mem_taken_iff (dedupe : Bool) (declared : List f.Declared) (n : String) :
    n ∈ taken f dedupe declared ↔ n ∈ declared.map f.name := by
  cases dedupe with
  | false => rfl
  | true =>
    have hkeys : Assoc.keys (declared.map fun o => (f.name o, o)) = declared.map f.name := by
      rw [Assoc.keys, List.map_map]
      rfl
    change n ∈ (collapse f declared).map f.name ↔ _
    rw [keys_collapse, Assoc.mem_keys_ofList, hkeys]

theorem mem_names_fresh_iff (names : List String) (is : List (Item f)) (n : String) :
    n ∈ (fresh names is).map Item.name ↔ n ∉ names ∧ n ∈ is.map Item.name := by
  constructor
  · intro h
    obtain ⟨i, hi, rfl⟩ := List.mem_map.1 h
    exact ⟨(mem_of_mem_fresh hi).2, List.mem_map_of_mem (mem_of_mem_fresh hi).1⟩
  · rintro ⟨hn, h⟩
    induction is generalizing names with
    | nil => cases h
    | cons i rest ih =>
      rw [List.map_cons, List.mem_cons] at h
      rw [fresh]
      by_cases hi : i.name ∈ names
      · rw [if_pos hi]
        exact ih names hn (h.resolve_left fun e => hn (e ▸ hi))
      · rw [if_neg hi, List.map_cons, List.mem_cons]
        by_cases he : n = i.name
        · exact Or.inl he
        · refine Or.inr (ih _ (fun hmem => ?_) (h.resolve_left he))
          exact (List.mem_cons.1 hmem).elim he hn

/-- Merging keeps every name that is declared or held. -/
theorem mem_names_mergedItems_iff (dedupe : Bool) (declared : List f.Declared)
    (held : List (Item f)) (n : String) :
    n ∈ (mergedItems dedupe declared held).map Item.name ↔
      n ∈ declared.map f.name ∨ n ∈ held.map Item.name := by
  have hown : ((taking f dedupe declared).map Item.declared).map Item.name =
      taken f dedupe declared := by
    rw [List.map_map]
    rfl
  rw [mergedItems, List.map_append, List.mem_append, hown, mem_names_fresh_iff, mem_taken_iff]
  by_cases hn : n ∈ declared.map f.name <;> simp [hn]

theorem namesIn_eq_of_carried {as : List Annotation} {items : List (Item f)}
    (h : as.mapM Item.carry = .ok items) :
    namesIn as = (items.map Item.name).filter fun n => n ≠ "" := by
  unfold namesIn
  congr 1
  have hall := Outcome.mapM_eq_ok_iff.1 h
  clear h
  induction hall with
  | nil => rfl
  | cons hcarry _ ih =>
    obtain ⟨n, hn, rfl⟩ := Item.carry_eq_ok_iff.1 hcarry
    rw [List.filterMap_cons_some hn, ih]
    rfl

theorem namesIn_annotations {items : List (Item f)} (h : ∀ i ∈ items, i.Regular) (d : Defaults)
    (site : Option Site) :
    namesIn (items.map fun i => i.annotation d site) =
      (items.map Item.name).filter fun n => n ≠ "" := by
  unfold namesIn
  induction items with
  | nil => rfl
  | cons i rest ih =>
    rw [List.forall_mem_cons] at h
    have hname := Item.name?_annotation_eq h.1 d site
    by_cases hn : i.name = ""
    · simpa [hname, hn] using ih h.2
    · simpa [hname, hn] using ih h.2

/-- The names in the annotation for merged overrides. -/
theorem namesIn_parts {items : List (Item f)} (hitems : ∀ i ∈ items, i.Regular) {d : Defaults}
    {site : Option Site} {a : Annotation}
    (h : Annotation.ofItems f.wrapper (fun i site => i.annotation d site) site items = some a) :
    namesIn (parts f a) = (items.map Item.name).filter fun n => n ≠ "" := by
  obtain ⟨site', hparts⟩ := exists_parts_of_ofItems h
  rw [hparts]
  exact namesIn_annotations hitems d site'

/-! ## What merging leaves -/

/-- **The names that merged overrides have**: those declared, and those read from the index. -/
theorem mem_namesIn_merged_iff {ix : Index} {site : Site} {declared : List f.Declared}
    {held : List (Item f)} {d : Defaults} {dedupe : Bool} {a : Annotation}
    (hnames : ∀ o ∈ declared, ¬ Text.isBlank (f.name o))
    (hheld : (indexed ix f site).mapM Item.carry = .ok held)
    (ha : Annotation.ofItems f.wrapper (fun i site => i.annotation d site) (some site)
      (mergedItems dedupe declared held) = some a) (n : String) :
    n ∈ namesIn (parts f a) ↔ n ∈ declared.map f.name ∨ n ∈ namesIn (indexed ix f site) := by
  have hregular : ∀ i ∈ mergedItems dedupe declared held, i.Regular := by
    intro i hi
    rcases List.mem_append.1 hi with hi | hi
    · obtain ⟨o, -, rfl⟩ := List.mem_map.1 hi
      exact Or.inl rfl
    · obtain ⟨b, -, hb⟩ := Outcome.exists_of_mem_mapM hheld (mem_of_mem_fresh hi).1
      exact Or.inr ⟨b, hb⟩
  have hempty : "" ∉ declared.map f.name := by
    intro h
    obtain ⟨o, ho, hn⟩ := List.mem_map.1 h
    exact hnames o ho (by rw [hn]; exact Text.isBlank_empty)
  rw [namesIn_parts hregular ha, namesIn_eq_of_carried hheld, List.mem_filter, List.mem_filter,
    mem_names_mergedItems_iff]
  by_cases hn : n = ""
  · subst hn
    simp [hempty]
  · simp [hn]

/-- **What a merge leaves of the names on its site.** When declared overrides are merged and the
result takes the place of all overrides on the site, the names there are those declared and those
that the merge has read. Where there was one wrapper at most, no name is lost. -/
theorem mem_names_replace_merged {ix : Index} {d : Defaults} {dedupe : Bool}
    {declared : List f.Declared} {site : Site} {m : Option Annotation} (hne : declared ≠ [])
    (h : mergedAnnotation f ix d dedupe declared (some site) = .ok m) :
    ∃ a, m = some a ∧
      (∀ n, n ∈ namesIn (standing (ix.replace a f.kinds) f site) ↔
        n ∈ declared.map f.name ∨ n ∈ namesIn (indexed ix f site)) ∧
      ((ix.onSite site.className f.wrapper site).length ≤ 1 →
        ∀ n ∈ namesIn (standing ix f site),
          n ∈ namesIn (standing (ix.replace a f.kinds) f site)) := by
  have hoverrides : Context.overrides ⟨d, .everything, dedupe⟩ ix f declared site =
      .ok m.toList := Outcome.map_eq_ok_iff.2 ⟨m, h, rfl⟩
  obtain ⟨hnames, held, a, hheld, ha, hm⟩ := (overrides_eq_ok_iff hne).1 hoverrides
  have hoccupies := occupies_of_ofItems ha
  -- The family's two kinds are the rivals of the annotation.
  have hkinds : ∀ k, k ∈ f.kinds ↔ k ∈ a.kind.rivals := by
    intro k
    rw [Kind.mem_rivals_iff, hoccupies.2, slot_eq_scalar_iff]
    simp [Family.kinds]
  have hstanding : standing (ix.replace a f.kinds) f site = parts f a := by
    rw [← standing_write_of_occupies ix hoccupies]
    exact standing_congr (fun c k => Index.ofKind_replace_congr ix a hkinds c k) site
  have hiff := mem_namesIn_merged_iff hnames hheld ha
  refine ⟨a, ?_, fun n => hstanding ▸ hiff n, fun hone n hn => ?_⟩
  · cases m with
    | none => cases hm
    | some b => rw [List.head_eq_of_cons_eq hm]
  · rw [hstanding, hiff]
    exact Or.inr (standing_eq_indexed hone ▸ hn)

/-- A wrapper and a single override are both read, and all their names are kept. -/
theorem names_over_wrapper_and_single :
    let site : Site := .onClass "Order"
    let named := fun (name : String) (site : Option Site) =>
      Declaration.AttributeOverride.annotation { name := name } site
    let ix : Index := .ofList [.wrapper .attributeOverrides (some site)
      [named "street" none, named "city" none], named "zip" (some site)]
    ∃ a, mergedAnnotation .attributes ix {} true [{ name := "city" }] (some site) = .ok (some a) ∧
      ∀ n ∈ ["street", "city", "zip"],
        n ∈ namesIn (standing (ix.replace a (Family.kinds .attributes)) .attributes site) := by
  intro site named ix
  have hmerged : mergedAnnotation .attributes ix {} true [{ name := "city" }] (some site) =
      .ok _ := rfl
  obtain ⟨a, ha, -, hkept⟩ :=
    mem_names_replace_merged (List.cons_ne_nil _ _) hmerged
  exact ⟨a, hmerged.trans (congrArg Except.ok ha), fun n hn => hkept (by decide) n (by
    have hstanding : namesIn (standing ix .attributes site) = ["street", "city", "zip"] := by decide
    rw [hstanding]
    exact hn)⟩

/-- **A further wrapper is lost.** Two wrappers stand on a class. Merging reads the first, and
writing removes both. -/
theorem further_wrapper_is_lost :
    let site : Site := .onClass "Order"
    let named := fun name : String => Declaration.AttributeOverride.annotation { name := name } none
    let ix : Index := .ofList [.wrapper .attributeOverrides (some site) [named "street"],
      .wrapper .attributeOverrides (some site) [named "city"]]
    ∃ a, mergedAnnotation .attributes ix {} true [{ name := "zip" }] (some site) = .ok (some a) ∧
      "city" ∈ namesIn (standing ix .attributes site) ∧
      namesIn (standing (ix.replace a (Family.kinds .attributes)) .attributes site) =
        ["zip", "street"] :=
  ⟨_, rfl, by decide, by decide⟩

end MappingMetadata.Override
