import MappingMetadata.Proofs.Globals.Registrations

/-!
# The names of global declarations

A declaration is registered under the name that it declares (`mem_names_of_build`). A name that is
registered once keeps its place, and declarations that have no kind and name in common can be
registered in either order (`get?_registerBuilt_comm`).
-/

namespace MappingMetadata

/-- The name of an annotation made from entries is the text that is stated as its name. -/
theorem Annotation.name?_ofEntries {kind : Kind} {site : Option Site}
    {entries : List (String × Entry)} (h : (Assoc.keys entries).Nodup) {name : Option String}
    (hname : Assoc.get? entries "name" = some (.string name)) :
    (ofEntries kind site entries).name? = name.filter fun s => !s.isEmpty := by
  rw [name?, string?, field?_ofEntries h, hname]
  change Option.bind ((name.filter fun s => !s.isEmpty).map Value.string) Value.string? = _
  cases name.filter fun s => !s.isEmpty <;> rfl

namespace Declaration.GlobalDeclarations

open Annotation (name?_ofEntries ofEntries)

/-- The kind and the name of each declaration that declares a name; an empty text is no name. -/
def names (g : GlobalDeclarations) : List (GlobalKind × String) :=
  let named := fun (k : GlobalKind) (name : Option String) =>
    (name.filter fun s => !s.isEmpty).map fun n => (k, n)
  g.tableGenerators.filterMap (fun t => named .tableGenerator t.name) ++
  g.sequenceGenerators.filterMap (fun s => named .sequenceGenerator s.name) ++
  g.namedQueries.filterMap (fun q => named .namedQuery q.name) ++
  g.namedNativeQueries.filterMap (fun q => named .namedNativeQuery q.name) ++
  g.sqlResultSetMappings.filterMap (fun m => named .sqlResultSetMapping m.name)

variable {g : GlobalDeclarations} {path : ClassPath} {d : Defaults}

theorem mem_names_of_mem_annotations {k : GlobalKind} {a : Annotation} {n : String}
    (h : (k, Except.ok a) ∈ g.annotations path d) (hn : a.name? = some n) : (k, n) ∈ g.names := by
  have hdeclared : ∀ {kind : Kind} {entries : List (String × Entry)} {name : Option String},
      (Assoc.keys entries).Nodup → Assoc.get? entries "name" = some (.string name) →
      (ofEntries kind none entries).name? = some n →
      (name.filter fun s => !s.isEmpty) = some n := by
    intro kind entries name hkeys hname hn
    rwa [name?_ofEntries hkeys hname] at hn
  simp only [annotations, List.mem_append, List.mem_map, Prod.mk.injEq] at h
  simp only [names, List.mem_append, List.mem_filterMap, Option.map_eq_some_iff, Prod.mk.injEq]
  rcases h with (((⟨t, ht, rfl, h⟩ | ⟨s, hs, rfl, h⟩) | ⟨q, hq, rfl, h⟩) | ⟨q, hq, rfl, h⟩) |
    ⟨m, hm, rfl, h⟩
  · cases h
    have hname := hdeclared (by simp [TableGenerator.entries, Assoc.keys]) rfl hn
    exact Or.inl (Or.inl (Or.inl (Or.inl ⟨t, ht, n, hname, rfl, rfl⟩)))
  · cases h
    have hname := hdeclared (by simp [SequenceGenerator.entries, Assoc.keys]) rfl hn
    exact Or.inl (Or.inl (Or.inl (Or.inr ⟨s, hs, n, hname, rfl, rfl⟩)))
  · cases h
    have hname := hdeclared (by simp [NamedQuery.entries, Assoc.keys]) rfl hn
    exact Or.inl (Or.inl (Or.inr ⟨q, hq, n, hname, rfl, rfl⟩))
  · obtain ⟨c, -, h⟩ := Outcome.bind_eq_ok_iff.1 h
    cases h
    have hname := hdeclared (by simp [NamedNativeQuery.entries, Assoc.keys]) rfl hn
    exact Or.inl (Or.inr ⟨q, hq, n, hname, rfl, rfl⟩)
  · obtain ⟨es, -, h⟩ := Outcome.bind_eq_ok_iff.1 h
    cases h
    have hname := hdeclared (by simp [ResultSetMapping.entries, Assoc.keys]) rfl hn
    exact Or.inr ⟨m, hm, n, hname, rfl, rfl⟩

/-- Every declaration is built under a kind and name that are declared. -/
theorem mem_names_of_build {bs : List BuiltGlobal} (h : g.build path d = .ok bs) :
    ∀ b ∈ bs, (b.kind, b.name) ∈ g.names := by
  intro b hb
  obtain ⟨⟨k, result⟩, hmem, hresult⟩ := Outcome.exists_of_mem_mapM h hb
  obtain ⟨a, rfl, hnamed⟩ := Outcome.bind_eq_ok_iff.1 hresult
  obtain ⟨name, hname, rfl⟩ := BuiltGlobal.named_eq_ok hnamed
  exact mem_names_of_mem_annotations hmem hname

end Declaration.GlobalDeclarations

namespace Globals

open BuiltGlobal

/-- A name once registered stays registered, and keeps its place among the names. -/
theorem names_prefix_registerBuilt (g : Globals) (bs : List BuiltGlobal) (k : GlobalKind) :
    g.names k <+: (g.registerBuilt bs).names k := by
  induction bs using List.reverseRecOn with
  | nil => exact List.prefix_refl _
  | append_singleton bs b ih =>
    rw [registerBuilt_concat, names_register]
    split
    · exact ih.trans (List.prefix_append _ _)
    · exact ih

/-- Declarations without a common kind and name can be registered in either order. -/
theorem get?_registerBuilt_comm (g : Globals) {bs cs : List BuiltGlobal}
    (h : ∀ b ∈ bs, ∀ c ∈ cs, (b.kind, b.name) ≠ (c.kind, c.name)) (k : GlobalKind)
    (name : String) : ((g.registerBuilt bs).registerBuilt cs).get? k name =
      ((g.registerBuilt cs).registerBuilt bs).get? k name := by
  simp only [get?_registerBuilt]
  cases hb : latest? bs k name with
  | none => cases latest? cs k name <;> rfl
  | some a =>
    cases hc : latest? cs k name with
    | none => rfl
    | some a' =>
      obtain ⟨b, hbmem, rfl, rfl, -⟩ := exists_of_latest? hb
      obtain ⟨c, hcmem, hkind, hname, -⟩ := exists_of_latest? hc
      exact absurd (by rw [hkind, hname]) (h b hbmem c hcmem)

/-- Registries with the same declarations have the same names, up to their order. -/
theorem names_perm {g g' : Globals} {k : GlobalKind} (h : ∀ name, g.get? k name = g'.get? k name) :
    (g.names k).Perm (g'.names k) := by
  refine (List.perm_ext_iff_of_nodup (g.group k).nodup (g'.group k).nodup).2 fun name => ?_
  have hmem := mem_names_iff g k name
  rw [h, ← mem_names_iff] at hmem
  exact hmem

end Globals

end MappingMetadata
