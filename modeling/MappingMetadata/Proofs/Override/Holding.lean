import MappingMetadata.Proofs.Index.Slots
import MappingMetadata.Proofs.Override.Remerging

/-!
# The overrides that an index holds

`Held ix f site items` says that the overrides of a site can all be carried over as the given
items, each with a name by which it is found again. One write on the site replaces what is held
(`indexed_write`), every other write leaves it alone.

**Theorem (`overrides_of_held`).** Where items are held, declared overrides that all have names
can be merged. The annotation is determined by the items, and once it is written the items that
are then held are those of `mergeInto`.
-/

namespace MappingMetadata.Override

variable {f : Family}

/-! ## Reading after a write -/

/-- The overrides that one annotation of the family stands for. -/
def parts (f : Family) (a : Annotation) : List Annotation :=
  if a.kind = f.wrapper then a.members else [a]

/-- The annotation is on the site and in the slot of the family. -/
def Occupies (f : Family) (site : Site) (a : Annotation) : Prop :=
  a.site = some site ∧ a.kind.slot = f.scalar

theorem slot_eq_scalar_iff {k : Kind} : k.slot = f.scalar ↔ k = f.scalar ∨ k = f.wrapper := by
  constructor
  · cases f <;> cases k <;> intro h <;> first | exact Or.inl rfl | exact Or.inr rfl | cases h
  · rintro (rfl | rfl) <;> cases f <;> rfl

theorem scalar_ne_wrapper (f : Family) : f.scalar ≠ f.wrapper := by
  cases f <;> decide

theorem parts_wrapper (site : Option Site) (as : List Annotation) :
    parts f (.wrapper f.wrapper site as) = as :=
  if_pos rfl

theorem parts_item (i : Item f) (d : Defaults) (site : Option Site) :
    parts f (i.annotation d site) = [i.annotation d site] := by
  have hne : ¬ (i.annotation d site).kind = f.wrapper := by
    rw [Item.kind_annotation]
    exact scalar_ne_wrapper f
  exact if_neg hne

/-- The annotation for a list of items stands for one annotation of each. -/
theorem exists_parts_of_ofItems {items : List (Item f)} {d : Defaults} {site : Option Site}
    {a : Annotation}
    (h : Annotation.ofItems f.wrapper (fun i site => i.annotation d site) site items = some a) :
    ∃ site', parts f a = items.map fun i => i.annotation d site' := by
  rcases Annotation.ofItems_eq_some h with ⟨i, rfl, rfl⟩ | ⟨-, rfl⟩
  · exact ⟨site, parts_item i d site⟩
  · exact ⟨none, parts_wrapper site _⟩

theorem indexed_write_of_occupies (ix : Index) {a : Annotation} {site : Site}
    (h : Occupies f site a) : indexed (ix.write a) f site = parts f a := by
  have hslot : ∀ k, k.slot = f.scalar →
      (ix.write a).onSite site.className k site = if a.kind = k then [a] else [] := by
    intro k hk
    rw [Index.onSite_write]
    exact if_pos ⟨h.1, h.2.trans hk.symm⟩
  unfold parts
  rw [indexed_eq, hslot _ (slot_eq_scalar_iff.2 (Or.inr rfl)),
    hslot _ (slot_eq_scalar_iff.2 (Or.inl rfl))]
  rcases slot_eq_scalar_iff.1 h.2 with hk | hk
  · have hne : ¬ a.kind = f.wrapper := fun e => scalar_ne_wrapper f (hk.symm.trans e)
    rw [if_neg hne, if_neg hne, if_pos hk]
    rfl
  · have hne : ¬ a.kind = f.scalar := fun e => scalar_ne_wrapper f (e.symm.trans hk)
    rw [if_pos hk, if_pos hk, if_neg hne]
    exact List.append_nil _

/-- Put in place of both kinds of the family, the annotation is all that is read on its site. -/
theorem indexed_replace_of_occupies (ix : Index) {a : Annotation} {site : Site}
    (h : Occupies f site a) : indexed (ix.replace a f.kinds) f site = parts f a := by
  have hkinds : ∀ k, k ∈ f.kinds ↔ k ∈ a.kind.rivals := by
    intro k
    rw [Kind.mem_rivals_iff, h.2, slot_eq_scalar_iff]
    simp [Family.kinds]
  have hsame := Index.ofKind_replace_congr ix a hkinds
  rw [← indexed_write_of_occupies ix h]
  rw [indexed_eq, indexed_eq]
  unfold Index.onSite Index.write
  rw [hsame, hsame]

/-- Writes elsewhere leave both kinds of the family as they are on the site. -/
theorem onSite_writeAll_of_not_occupies (ix : Index) {as : List Annotation} {site : Site}
    (h : ∀ a ∈ as, ¬ Occupies f site a) {k : Kind} (hk : k.slot = f.scalar) :
    (ix.writeAll as).onSite site.className k site = ix.onSite site.className k site := by
  induction as generalizing ix with
  | nil => rfl
  | cons a as ih =>
    rw [List.forall_mem_cons] at h
    rw [Index.writeAll_cons, ih _ h.2, Index.onSite_write, if_neg]
    exact fun ⟨hsite, hslot⟩ => h.1 ⟨hsite, hslot.trans hk⟩

theorem indexed_writeAll_of_not_occupies (ix : Index) {as : List Annotation} {site : Site}
    (h : ∀ a ∈ as, ¬ Occupies f site a) : indexed (ix.writeAll as) f site = indexed ix f site := by
  rw [indexed_eq, indexed_eq,
    onSite_writeAll_of_not_occupies ix h (slot_eq_scalar_iff.2 (Or.inr rfl)),
    onSite_writeAll_of_not_occupies ix h (slot_eq_scalar_iff.2 (Or.inl rfl))]

/-! ## What is held -/

/-- The overrides of a site in the index, as they can be carried over under their names. -/
structure Held (ix : Index) (f : Family) (site : Site) (items : List (Item f)) : Prop where
  carried : (indexed ix f site).mapM Item.carry = .ok items
  named : ∀ i ∈ items, i.name ≠ ""

theorem Held.congr {ix ix' : Index} {site : Site} {items : List (Item f)} (h : Held ix f site items)
    (hix : indexed ix' f site = indexed ix f site) : Held ix' f site items :=
  ⟨hix ▸ h.carried, h.named⟩

/-- Both indexes hold overrides for the site, the same ones but for the given names. -/
def AlikeBut (names : List String) (ix jx : Index) (f : Family) (site : Site) : Prop :=
  ∃ x y : List (Item f), Held ix f site x ∧ Held jx f site y ∧ fresh names x = fresh names y

/-- What is held unless there is an override with an empty name. -/
theorem held_of_carried {ix : Index} {site : Site} {items : List (Item f)}
    (h : (indexed ix f site).mapM Item.carry = .ok items)
    (hnames : ∀ a ∈ indexed ix f site, a.name? ≠ some "") : Held ix f site items where
  carried := h
  named i hi := by
    obtain ⟨a, ha, hcarry⟩ := Outcome.exists_of_mem_mapM h hi
    obtain ⟨n, hn, rfl⟩ := Item.carry_eq_ok_iff.1 hcarry
    exact fun h => hnames a ha (by rw [hn]; exact congrArg some h)

/-! ## Merging into what is held -/

/-- The items of the merged list. -/
def mergedItems (dedupe : Bool) (declared : List f.Declared) (held : List (Item f)) :
    List (Item f) :=
  (taking f dedupe declared).map .declared ++ fresh (taken f dedupe declared) held

theorem mergedItems_ne_nil {dedupe : Bool} {declared : List f.Declared} (h : declared ≠ [])
    (held : List (Item f)) : mergedItems dedupe declared held ≠ [] := by
  intro hnil
  exact taking_ne_nil h (List.map_eq_nil_iff.1 (List.append_eq_nil_iff.1 hnil).1)

theorem exists_ofItems {items : List (Item f)} (h : items ≠ []) (d : Defaults)
    (site : Option Site) :
    ∃ a, Annotation.ofItems f.wrapper (fun i site => i.annotation d site) site items = some a := by
  match items with
  | [] => exact absurd rfl h
  | [i] => exact ⟨_, rfl⟩
  | i :: j :: rest => exact ⟨_, rfl⟩

/-- When the overrides of a site are merged successfully, and what is to be written then. -/
theorem overrides_eq_ok_iff {ctx : Context} {ix : Index} {declared : List f.Declared} {site : Site}
    {as : List Annotation} (hne : declared ≠ []) :
    ctx.overrides ix f declared site = .ok as ↔
      (∀ o ∈ declared, ¬ Text.isBlank (f.name o)) ∧ ∃ held a,
        (indexed ix f site).mapM Item.carry = .ok held ∧
        Annotation.ofItems f.wrapper (fun i site => i.annotation ctx.defaults site) (some site)
          (mergedItems ctx.dedupe declared held) = some a ∧ as = [a] := by
  unfold Context.overrides
  rw [Outcome.map_eq_ok_iff]
  constructor
  · rintro ⟨m, hm, rfl⟩
    obtain ⟨merged, hmerge, hm⟩ := Outcome.bind_eq_ok_iff.1 hm
    obtain ⟨hnil, -⟩ | ⟨-, hall, held, hheld, rfl⟩ := merge_eq_ok_iff.1 hmerge
    · exact absurd hnil hne
    · obtain ⟨a, ha⟩ := exists_ofItems (mergedItems_ne_nil hne held) ctx.defaults (some site)
      have hma : m = some a := (Except.ok.inj hm).symm.trans ha
      exact ⟨hall, held, a, hheld, ha, by rw [hma]; rfl⟩
  · rintro ⟨hall, held, a, hheld, ha, rfl⟩
    have hmerge : merge f ix ctx.dedupe declared (some site) =
        .ok (some ⟨site, mergedItems ctx.dedupe declared held⟩) :=
      merge_eq_ok_iff.2 (Or.inr ⟨hne, hall, held, hheld, rfl⟩)
    refine ⟨some a, Outcome.bind_eq_ok_iff.2 ⟨_, hmerge, ?_⟩, rfl⟩
    exact congrArg Except.ok ha

theorem overrides_nil (ctx : Context) (ix : Index) (site : Site) :
    ctx.overrides ix f [] site = .ok [] := rfl

theorem occupies_of_ofItems {items : List (Item f)} {d : Defaults} {site : Site} {a : Annotation}
    (h : Annotation.ofItems f.wrapper (fun i site => i.annotation d site) (some site) items =
      some a) : Occupies f site a := by
  rcases Annotation.ofItems_eq_some h with ⟨i, -, rfl⟩ | ⟨-, rfl⟩
  · exact ⟨i.site_annotation d _, slot_eq_scalar_iff.2 (Or.inl (i.kind_annotation d _))⟩
  · exact ⟨rfl, slot_eq_scalar_iff.2 (Or.inr rfl)⟩

/-- Merged overrides are written to their own site and slot only. -/
theorem occupies_of_overrides {ctx : Context} {ix : Index} {declared : List f.Declared}
    {site : Site} {as : List Annotation} (h : ctx.overrides ix f declared site = .ok as) :
    ∀ a ∈ as, Occupies f site a := by
  by_cases hne : declared = []
  · rw [hne, overrides_nil] at h
    cases h
    exact fun a ha => by cases ha
  · obtain ⟨-, held, a, -, ha, rfl⟩ := (overrides_eq_ok_iff hne).1 h
    intro b hb
    rw [List.mem_singleton.1 hb]
    exact occupies_of_ofItems ha

/-- What is written for items with names is found again as the same items, settled. -/
theorem carry_parts {items : List (Item f)} (hitems : ∀ i ∈ items, i.Regular ∧ i.name ≠ "")
    {d : Defaults} {site : Option Site} {a : Annotation}
    (h : Annotation.ofItems f.wrapper (fun i site => i.annotation d site) site items = some a) :
    (parts f a).mapM Item.carry = .ok (items.map fun i => i.settled d) := by
  obtain ⟨site', hparts⟩ := exists_parts_of_ofItems h
  have hcarry : ∀ i ∈ items, Item.carry (i.annotation d site') = .ok (i.settled d) := fun i hi =>
    Item.carry_annotation (hitems i hi).1 (hitems i hi).2 d site'
  rw [hparts]
  exact Outcome.mapM_map_eq_ok (g := fun i : Item f => i.annotation d site') hcarry

theorem Held.settled {ix : Index} {site : Site} {held : List (Item f)} (h : Held ix f site held)
    (d : Defaults) : ∀ i ∈ held, i.Regular ∧ i.settled d = i := by
  intro i hi
  obtain ⟨a, -, ha⟩ := Outcome.exists_of_mem_mapM h.carried hi
  exact ⟨Or.inr ⟨a, ha⟩, Item.settled_of_carry ha d⟩

/-- **Once merged overrides are written, they are held**, whatever the index held elsewhere. -/
theorem Held.write {ctx : Context} {ix : Index} {site : Site} {held : List (Item f)}
    (h : Held ix f site held) {declared : List f.Declared} (hne : declared ≠ [])
    (hnames : ∀ o ∈ declared, ¬ Text.isBlank (f.name o)) {a : Annotation}
    (ha : Annotation.ofItems f.wrapper (fun i site => i.annotation ctx.defaults site) (some site)
      (mergedItems ctx.dedupe declared held) = some a) (jx : Index) :
    Held (jx.write a) f site (mergeInto ctx.defaults ctx.dedupe declared held) := by
  have hitems : ∀ i ∈ mergedItems ctx.dedupe declared held, i.Regular ∧ i.name ≠ "" := by
    intro i hi
    rcases List.mem_append.1 hi with hi | hi
    · obtain ⟨o, ho, rfl⟩ := List.mem_map.1 hi
      refine ⟨Or.inl rfl, fun he => hnames o (mem_of_mem_taking ho) ?_⟩
      rw [show f.name o = "" from he]
      exact Text.isBlank_empty
    · have hi := (mem_of_mem_fresh hi).1
      exact ⟨(h.settled ctx.defaults i hi).1, h.named i hi⟩
  have hsettled : (mergedItems ctx.dedupe declared held).map (fun i => i.settled ctx.defaults) =
      mergeInto ctx.defaults ctx.dedupe declared held := by
    have hfresh : (fresh (taken f ctx.dedupe declared) held).map (fun i => i.settled ctx.defaults) =
        fresh (taken f ctx.dedupe declared) held := by
      refine (List.map_congr_left fun i hi => ?_).trans (List.map_id _)
      exact (h.settled ctx.defaults i (mem_of_mem_fresh hi).1).2
    rw [mergedItems, mergeInto, if_neg (by simpa using hne), List.map_append, List.map_map, hfresh]
    rfl
  constructor
  · rw [indexed_write_of_occupies jx (occupies_of_ofItems ha), carry_parts hitems ha, hsettled]
  · intro i hi
    rw [← hsettled] at hi
    obtain ⟨j, hj, rfl⟩ := List.mem_map.1 hi
    exact (hitems j hj).2

end MappingMetadata.Override
