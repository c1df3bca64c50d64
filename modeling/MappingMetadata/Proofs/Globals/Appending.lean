import MappingMetadata.Proofs.Globals.Registrations

/-!
# Global declarations one after another

Two lists of declarations for each kind, one after the other, are built in another order than first
all of the one and then all of the other: the kinds alternate. But within each kind the order is
the same, and a registry keeps its kinds apart.

**Theorem (`registerBuilt_of_build_append`).** Declarations appended kind by kind can be built when
both parts can, and registering them is registering the one part and then the other.
-/

namespace MappingMetadata

/-! ## Kinds are kept apart -/

namespace BuiltGlobal

/-- The declarations of a kind. -/
def ofKind (bs : List BuiltGlobal) (k : GlobalKind) : List BuiltGlobal :=
  bs.filter fun b => b.kind = k

theorem ofKind_append (bs cs : List BuiltGlobal) (k : GlobalKind) :
    ofKind (bs ++ cs) k = ofKind bs k ++ ofKind cs k := List.filter_append ..

theorem ofKind_cons (b : BuiltGlobal) (bs : List BuiltGlobal) (k : GlobalKind) :
    ofKind (b :: bs) k = if b.kind = k then b :: ofKind bs k else ofKind bs k := by
  unfold ofKind
  rw [List.filter_cons]
  simp only [decide_eq_true_eq]

end BuiltGlobal

namespace Globals

open BuiltGlobal

theorem group_registerBuilt (g : Globals) (bs : List BuiltGlobal) (k : GlobalKind) :
    (g.registerBuilt bs).group k =
      (ofKind bs k).foldl (fun d b => d.put b.name b.annotation) (g.group k) := by
  induction bs generalizing g with
  | nil => rfl
  | cons b bs ih =>
    have hcons : g.registerBuilt (b :: bs) =
        (g.register b.kind b.name b.annotation).registerBuilt bs := rfl
    rw [hcons, ih, ofKind_cons]
    by_cases hk : b.kind = k
    · subst hk
      rw [if_pos rfl, List.foldl_cons]
      congr 1
      exact if_pos rfl
    · rw [if_neg hk]
      congr 1
      exact if_neg fun e => hk e.symm

/-- What a registry becomes depends on the declarations of each kind, not on how kinds alternate. -/
theorem registerBuilt_congr (g : Globals) {bs cs : List BuiltGlobal}
    (h : ∀ k, ofKind bs k = ofKind cs k) : g.registerBuilt bs = g.registerBuilt cs := by
  have hgroup : (g.registerBuilt bs).group = (g.registerBuilt cs).group := by
    funext k
    rw [group_registerBuilt, group_registerBuilt, h]
  exact congrArg Globals.mk hgroup

end Globals

/-! ## Building -/

namespace Declaration.GlobalDeclarations

variable {g h : GlobalDeclarations} {path : ClassPath} {d : Defaults}

/-- The declarations of both, those of the first in front in each list. -/
def append (g h : GlobalDeclarations) : GlobalDeclarations where
  tableGenerators := g.tableGenerators ++ h.tableGenerators
  sequenceGenerators := g.sequenceGenerators ++ h.sequenceGenerators
  namedQueries := g.namedQueries ++ h.namedQueries
  namedNativeQueries := g.namedNativeQueries ++ h.namedNativeQueries
  sqlResultSetMappings := g.sqlResultSetMappings ++ h.sqlResultSetMappings

theorem mem_annotations_append (p : GlobalKind × Outcome Annotation) :
    p ∈ (g.append h).annotations path d ↔ p ∈ g.annotations path d ∨ p ∈ h.annotations path d := by
  simp only [annotations, append, List.map_append, List.mem_append]
  tauto

theorem length_annotations_append : ((g.append h).annotations path d).length =
    (g.annotations path d).length + (h.annotations path d).length := by
  simp only [annotations, append, List.map_append, List.length_append]
  omega

theorem filter_annotations_append (k : GlobalKind) :
    ((g.append h).annotations path d).filter (fun p => p.1 = k) =
      (g.annotations path d).filter (fun p => p.1 = k) ++
        (h.annotations path d).filter (fun p => p.1 = k) := by
  unfold annotations append
  cases k <;> simp [List.filter_append, List.filter_map, Function.comp_def]

/-- Build one declaration. -/
def buildOne (p : GlobalKind × Outcome Annotation) : Outcome BuiltGlobal := do
  BuiltGlobal.named p.1 (← p.2)

theorem kind_of_buildOne {p : GlobalKind × Outcome Annotation} {b : BuiltGlobal}
    (h : buildOne p = .ok b) : b.kind = p.1 := by
  obtain ⟨a, -, hnamed⟩ := Outcome.bind_eq_ok_iff.1 h
  obtain ⟨name, -, rfl⟩ := BuiltGlobal.named_eq_ok hnamed
  rfl

/-- The declarations of one kind are built from those of that kind. -/
theorem mapM_filter_buildOne {ps : List (GlobalKind × Outcome Annotation)}
    {bs : List BuiltGlobal} (h : ps.mapM buildOne = .ok bs) (k : GlobalKind) :
    (ps.filter fun p => p.1 = k).mapM buildOne = .ok (BuiltGlobal.ofKind bs k) := by
  rw [Outcome.mapM_eq_ok_iff] at h ⊢
  refine List.rel_filter (fun p b hb => ?_) h
  simp only [kind_of_buildOne hb]

theorem exists_build_append_iff : (∃ as, (g.append h).build path d = .ok as) ↔
    (∃ bs, g.build path d = .ok bs) ∧ ∃ cs, h.build path d = .ok cs := by
  have hbuild : ∀ g : GlobalDeclarations,
      g.build path d = (g.annotations path d).mapM buildOne := fun _ => rfl
  simp only [hbuild, Outcome.exists_mapM_iff, mem_annotations_append]
  exact ⟨fun hall => ⟨fun p hp => hall p (Or.inl hp), fun p hp => hall p (Or.inr hp)⟩,
    fun hall p hp => hp.elim (hall.1 p) (hall.2 p)⟩

/-- **Registering appended declarations** is registering the one part and then the other. -/
theorem registerBuilt_of_build_append {as bs cs : List BuiltGlobal}
    (has : (g.append h).build path d = .ok as) (hbs : g.build path d = .ok bs)
    (hcs : h.build path d = .ok cs) :
    as.length = bs.length + cs.length ∧
      ∀ r : Globals, r.registerBuilt as = (r.registerBuilt bs).registerBuilt cs := by
  constructor
  · rw [← (Outcome.mapM_eq_ok_iff.1 has).length_eq, ← (Outcome.mapM_eq_ok_iff.1 hbs).length_eq,
      ← (Outcome.mapM_eq_ok_iff.1 hcs).length_eq]
    exact length_annotations_append
  · intro r
    rw [← Globals.registerBuilt_append]
    refine r.registerBuilt_congr fun k => ?_
    have hwhole := mapM_filter_buildOne has k
    rw [filter_annotations_append, List.mapM_append, mapM_filter_buildOne hbs k,
      mapM_filter_buildOne hcs k] at hwhole
    rw [BuiltGlobal.ofKind_append]
    exact (Except.ok.inj hwhole).symm

end Declaration.GlobalDeclarations

end MappingMetadata
