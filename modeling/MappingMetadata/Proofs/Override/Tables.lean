import MappingMetadata.Proofs.Override.Holding

/-!
# The join tables of merged overrides

A join table in an annotation of association overrides is that of a declared override, or it was
carried over as it is from what the index held for the site (`table_of_overrides`). So as indexes
are written, no join table gets into their overrides that was neither declared nor there before
(`carriesTable_writeAll`).
-/

namespace MappingMetadata.Override

open Annotation (field?_ofEntries)

/-- The value that stands for the join table of a declared override. -/
def Tabled (d : Defaults) (o : Declaration.AssociationOverride) (v : Value) : Prop :=
  ∃ t, o.joinTable = some t ∧ v = .nested (t.annotation d none)

/-- Some override of the annotation states the join table. -/
def StatesTable (a : Annotation) (v : Value) : Prop :=
  ∃ b ∈ parts .associations a, b.field? "joinTable" = some v

/-- Some site has an override in the index from which the join table can be carried over. -/
def CarriesTable (ix : Index) (v : Value) : Prop :=
  ∃ site, ∃ b ∈ indexed ix .associations site, b.field? "joinTable" = some v

theorem tabled_of_field? {o : Declaration.AssociationOverride} {d : Defaults}
    {site : Option Site} {v : Value} (h : (o.annotation d site).field? "joinTable" = some v) :
    Tabled d o v := by
  have hkeys : (Assoc.keys (o.entries d)).Nodup :=
    show List.Nodup ["name", "joinColumns", "joinTable"] by decide
  have hfield := (field?_ofEntries hkeys "joinTable").symm.trans h
  obtain ⟨b, hb, rfl⟩ := Option.map_eq_some_iff.1 (show (o.joinTable.map fun t =>
    t.annotation d none).map Value.nested = some v from hfield)
  obtain ⟨t, ht, rfl⟩ := Option.map_eq_some_iff.1 hb
  exact ⟨t, ht, rfl⟩

/-- **Where a join table of merged overrides is from.** -/
theorem table_of_overrides {ctx : Context} {ix : Index}
    {declared : List Declaration.AssociationOverride} {site : Site} {as : List Annotation}
    (h : ctx.overrides ix .associations declared site = .ok as) {a : Annotation} (ha : a ∈ as)
    {v : Value} (hv : StatesTable a v) :
    (∃ o ∈ declared, Tabled ctx.defaults o v) ∨ CarriesTable ix v := by
  obtain ⟨b, hb, hv⟩ := hv
  by_cases hne : declared = []
  · rw [hne, overrides_nil] at h
    cases h
    cases ha
  obtain ⟨-, held, c, hheld, hc, rfl⟩ := (overrides_eq_ok_iff (f := .associations) hne).1 h
  rw [List.mem_singleton.1 ha] at hb
  -- Whether alone or in a wrapper, the override is the annotation of one merged item.
  obtain ⟨site', hparts⟩ := exists_parts_of_ofItems hc
  rw [hparts] at hb
  obtain ⟨i, hi, rfl⟩ := List.mem_map.1 hb
  rcases List.mem_append.1 hi with hi | hi
  · obtain ⟨o, ho, rfl⟩ := List.mem_map.1 hi
    exact Or.inl ⟨o, mem_of_mem_taking ho, tabled_of_field? hv⟩
  · obtain ⟨b, hb, hcarry⟩ := Outcome.exists_of_mem_mapM hheld (mem_of_mem_fresh hi).1
    rw [Item.field?_annotation_of_carry hcarry _ _ (by decide)] at hv
    exact Or.inr ⟨site, b, hb, hv⟩

/-- A join table that can be carried over after a write could be before, or was just written. -/
theorem carriesTable_write {ix : Index} {a : Annotation} {v : Value}
    (h : CarriesTable (ix.write a) v) :
    (a.kind.slot = .associationOverride ∧ StatesTable a v) ∨ CarriesTable ix v := by
  obtain ⟨site, b, hb, hv⟩ := h
  by_cases ho : Occupies .associations site a
  · rw [indexed_write_of_occupies ix ho] at hb
    exact Or.inl ⟨ho.2, b, hb, hv⟩
  · have hsame : indexed (ix.writeAll [a]) .associations site = indexed ix .associations site :=
      indexed_writeAll_of_not_occupies ix (List.forall_mem_singleton.2 ho)
    change b ∈ indexed (ix.writeAll [a]) .associations site at hb
    rw [hsame] at hb
    exact Or.inr ⟨site, b, hb, hv⟩

theorem carriesTable_writeAll {ix : Index} {as : List Annotation} {v : Value}
    (h : CarriesTable (ix.writeAll as) v) :
    (∃ a ∈ as, a.kind.slot = .associationOverride ∧ StatesTable a v) ∨ CarriesTable ix v := by
  induction as generalizing ix with
  | nil => exact Or.inr h
  | cons a as ih =>
    rcases ih h with ⟨b, hb, hstates⟩ | h
    · exact Or.inl ⟨b, List.mem_cons_of_mem _ hb, hstates⟩
    · exact (carriesTable_write h).imp_left fun ha => ⟨a, List.mem_cons_self, ha⟩

end MappingMetadata.Override
