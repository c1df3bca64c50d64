import Mathlib.Data.List.Nodup
import MappingMetadata.Proofs.Globals.Registrations
import MappingMetadata.Proofs.Index.Contents

/-!
# Harvesting and finishing

Harvesting collects what the annotations of an index hold, finishing spreads the declarations of a
registry over annotations that hold them again.

**Theorem (`get?_registrations`).** A registry that has registered a list of annotations holds,
under each kind and name, a detached copy of the last one that has them.

**Theorem (`declarations_finish`).** The finished annotations of a proper registry hold its
declarations, kind by kind and in the order of the names, and nothing else.
-/

namespace MappingMetadata

/-! ## Global kinds -/

/-- The kind of a global declaration or of a wrapper around several. -/
def Kind.IsGlobal (k : Kind) : Prop := ∃ g : GlobalKind, k = g.scalar ∨ k = g.wrapper

namespace GlobalKind

theorem isSome_ofScalar?_iff {k : Kind} :
    (ofScalar? k).isSome ↔ ∃ g : GlobalKind, k = g.scalar := by
  rw [Option.isSome_iff_exists]
  exact exists_congr fun g => (ofScalar?_eq_some_iff k g).trans eq_comm

theorem isSome_ofWrapper?_iff {k : Kind} :
    (ofWrapper? k).isSome ↔ ∃ g : GlobalKind, k = g.wrapper := by
  rw [Option.isSome_iff_exists]
  exact exists_congr fun g => (ofWrapper?_eq_some_iff k g).trans eq_comm

theorem wrapper_ne_scalar (g h : GlobalKind) : g.wrapper ≠ h.scalar := by
  cases g <;> cases h <;> decide

theorem scalar_injective : Function.Injective scalar := by
  intro g h
  cases g <;> cases h <;> decide

end GlobalKind

/-! ## The declarations in an annotation -/

namespace Annotation

theorem declarations_of_scalar {a : Annotation} {g : GlobalKind} (h : a.kind = g.scalar) :
    a.declarations = [a] :=
  if_pos (GlobalKind.isSome_ofScalar?_iff.2 ⟨g, h⟩)

theorem declarations_of_wrapper {a : Annotation} {g : GlobalKind} (h : a.kind = g.wrapper) :
    a.declarations = a.members := by
  have hscalar : ¬ (GlobalKind.ofScalar? a.kind).isSome := by
    rw [GlobalKind.isSome_ofScalar?_iff]
    rintro ⟨g', hg⟩
    exact g.wrapper_ne_scalar g' (h.symm.trans hg)
  exact (if_neg hscalar).trans (if_pos (GlobalKind.isSome_ofWrapper?_iff.2 ⟨g, h⟩))

theorem declarations_of_not_isGlobal {a : Annotation} (h : ¬ a.kind.IsGlobal) :
    a.declarations = [] := by
  have hscalar : ¬ (GlobalKind.ofScalar? a.kind).isSome := fun hs =>
    let ⟨g, hg⟩ := GlobalKind.isSome_ofScalar?_iff.1 hs
    h ⟨g, Or.inl hg⟩
  have hwrapper : ¬ (GlobalKind.ofWrapper? a.kind).isSome := fun hw =>
    let ⟨g, hg⟩ := GlobalKind.isSome_ofWrapper?_iff.1 hw
    h ⟨g, Or.inr hg⟩
  exact (if_neg hscalar).trans (if_neg hwrapper)

/-- The kind and the name of a declaration. -/
def label (a : Annotation) : Kind × Option String := (a.kind, a.name?)

end Annotation

namespace Globals

open BuiltGlobal
open Annotation (declarations_of_scalar declarations_of_wrapper declarations_of_not_isGlobal ofItems
  wrapper)

/-! ## What is harvested -/

/-- Harvested are the single declarations in an index and the members of its wrappers. -/
theorem mem_harvest_iff {ix : Index} {a : Annotation} : a ∈ harvest ix ↔
    (a ∈ ix.toList ∧ ∃ g : GlobalKind, a.kind = g.scalar) ∨
      ∃ w ∈ ix.toList, (∃ g : GlobalKind, w.kind = g.wrapper) ∧ a ∈ w.members := by
  rw [harvest, List.mem_flatMap]
  constructor
  · rintro ⟨w, hw, ha⟩
    by_cases hglobal : w.kind.IsGlobal
    · obtain ⟨g, hg | hg⟩ := hglobal
      · rw [declarations_of_scalar hg, List.mem_singleton] at ha
        exact Or.inl (ha ▸ ⟨hw, g, hg⟩)
      · rw [declarations_of_wrapper hg] at ha
        exact Or.inr ⟨w, hw, ⟨g, hg⟩, ha⟩
    · rw [declarations_of_not_isGlobal hglobal] at ha
      cases ha
  · rintro (⟨ha, g, hg⟩ | ⟨w, hw, ⟨g, hg⟩, ha⟩)
    · exact ⟨a, ha, by rw [declarations_of_scalar hg]; exact List.mem_singleton_self a⟩
    · exact ⟨w, hw, by rwa [declarations_of_wrapper hg]⟩

/-! ## What is registered -/

/-- Registered are annotations of a single kind that have a name. -/
theorem registration_eq_ok_iff {a : Annotation} {b : BuiltGlobal} : registration a = .ok b ↔
    a.kind = b.kind.scalar ∧ a.name? = some b.name ∧ b.annotation = a.detached := by
  unfold registration key
  constructor
  · intro h
    have hb := proper_of_registration h
    obtain ⟨p, -, rfl⟩ := Outcome.map_eq_ok_iff.1 h
    exact ⟨hb.kind, hb.name, rfl⟩
  · rintro ⟨hkind, hname, hdetached⟩
    rw [(GlobalKind.ofScalar?_eq_some_iff a.kind b.kind).2 hkind.symm, hname]
    cases b
    cases hdetached
    rfl

theorem exists_registration_iff {a : Annotation} : (∃ b, registration a = .ok b) ↔
    (∃ g : GlobalKind, a.kind = g.scalar) ∧ a.name?.isSome := by
  simp only [registration_eq_ok_iff, Option.isSome_iff_exists]
  constructor
  · rintro ⟨b, hkind, hname, -⟩
    exact ⟨⟨b.kind, hkind⟩, b.name, hname⟩
  · rintro ⟨⟨g, hkind⟩, name, hname⟩
    exact ⟨⟨g, name, a.detached⟩, hkind, hname, rfl⟩

/-- Annotations that can all be registered are registered in their order. -/
theorem registerAll_of_mapM {g : Globals} {as : List Annotation} {bs : List BuiltGlobal}
    (h : as.mapM registration = .ok bs) : g.registerAll as = (g.registerBuilt bs, none) := by
  rw [Outcome.mapM_eq_ok_iff] at h
  induction h generalizing g with
  | nil => rfl
  | @cons a b as bs hb _ ih =>
    obtain ⟨p, hp, rfl⟩ := Outcome.map_eq_ok_iff.1 hb
    have hown : g.registerOwn a = .ok (g.register p.1 p.2 a.detached) :=
      Outcome.map_eq_ok_iff.2 ⟨p, hp, rfl⟩
    rw [registerAll, hown]
    exact ih

/-- **Each declaration that is registered is the last of its name.** -/
theorem get?_registrations (as : List Annotation) (k : GlobalKind) (name : String) :
    (empty.registerBuilt (as.filterMap fun a => (registration a).toOption)).get? k name =
      ((as.filter fun a => a.kind = k.scalar ∧ a.name? = some name).getLast?).map
        Annotation.detached := by
  rw [get?_registerBuilt]
  refine Option.or_none.trans ?_
  induction as using List.reverseRecOn with
  | nil => rfl
  | append_singleton as a ih =>
    rw [List.filterMap_append, List.filter_append]
    -- The last annotation decides if it has the kind and the name, and else it changes nothing.
    by_cases ha : a.kind = k.scalar ∧ a.name? = some name
    · have hb : registration a = .ok ⟨k, name, a.detached⟩ :=
        registration_eq_ok_iff.2 ⟨ha.1, ha.2, rfl⟩
      rw [List.filterMap_cons_some (by rw [hb]; rfl), List.filterMap_nil, latest?_concat,
        if_pos ⟨rfl, rfl⟩, List.filter_singleton, decide_eq_true ha, cond_true,
        List.getLast?_concat]
      rfl
    · rw [List.filter_singleton, decide_eq_false ha, cond_false, List.append_nil, ← ih]
      cases hb : registration a with
      | error e =>
        rw [List.filterMap_cons_none (by rw [hb]; rfl), List.filterMap_nil, List.append_nil]
      | ok b =>
        obtain ⟨hkind, hname, -⟩ := registration_eq_ok_iff.1 hb
        rw [List.filterMap_cons_some (by rw [hb]; rfl), List.filterMap_nil, latest?_concat]
        refine if_neg ?_
        rintro ⟨rfl, rfl⟩
        exact ha ⟨hkind, hname⟩

/-! ## What is finished -/

/-- Every declaration is of its kind, under its name and on no site. -/
def Proper (g : Globals) : Prop :=
  ∀ k name a, g.get? k name = some a → a.kind = k.scalar ∧ a.name? = some name ∧ a.site = none

variable {g : Globals}

theorem Proper.of_mem_values (h : g.Proper) {k : GlobalKind} {a : Annotation}
    (ha : a ∈ (g.group k).values) : a.kind = k.scalar ∧ a.site = none :=
  let ⟨name, hname⟩ := (Dict.mem_values_iff _ a).1 ha
  ⟨(h k name a hname).1, (h k name a hname).2.2⟩

/-- The declarations in the annotation that finishes a kind. -/
theorem declarations_ofItems {k : GlobalKind} {as : List Annotation}
    (h : ∀ a ∈ as, a.kind = k.scalar ∧ a.site = none) :
    ((ofItems k.wrapper Annotation.withSite none as).toList.flatMap
      Annotation.declarations) = as := by
  match as with
  | [] => rfl
  | [a] =>
    obtain ⟨hkind, hsite⟩ := h a List.mem_cons_self
    have hone : a.withSite none = a := Annotation.withSite_none hsite
    rw [ofItems, hone]
    exact (List.flatMap_singleton ..).trans (declarations_of_scalar hkind)
  | a :: b :: rest =>
    have hall := Annotation.map_withSite_none fun a ha => (h a ha).2
    have hmany : ofItems k.wrapper Annotation.withSite none (a :: b :: rest) =
        some (wrapper k.wrapper none (a :: b :: rest)) :=
      congrArg (fun as => some (wrapper k.wrapper none as)) hall
    rw [hmany]
    exact (List.flatMap_singleton ..).trans (declarations_of_wrapper rfl)

/-- **Finishing reports every declaration of a proper registry.** -/
theorem declarations_finish (h : g.Proper) : g.finish.flatMap Annotation.declarations =
    GlobalKind.all.flatMap fun k => (g.group k).values := by
  unfold finish
  rw [List.filterMap_eq_flatMap_toList, List.flatMap_assoc]
  exact List.flatMap_congr fun k _ => declarations_ofItems fun a ha => h.of_mem_values ha

theorem labels_values (h : g.Proper) (k : GlobalKind) :
    (g.group k).values.map Annotation.label =
      (g.names k).map fun name => (k.scalar, some name) := by
  have hlabel : ∀ name ∈ g.names k, ((g.get? k name).map Annotation.label) =
      some (k.scalar, some name) := by
    intro name hname
    obtain ⟨a, ha⟩ := Option.isSome_iff_exists.1 ((mem_names_iff g k name).1 hname)
    obtain ⟨hkind, hn, -⟩ := h k name a ha
    rw [ha, Option.map_some, Annotation.label, hkind, hn]
  rw [← Dict.filterMap_get?_keys, List.map_filterMap]
  exact (List.filterMap_congr hlabel).trans (congrFun List.filterMap_eq_map _)

/-- Finishing reports a kind and a name once, and only those that are registered. -/
theorem labels_finish (h : g.Proper) :
    ((g.finish.flatMap Annotation.declarations).map Annotation.label).Nodup ∧
      ∀ k name, (k, name) ∈ (g.finish.flatMap Annotation.declarations).map Annotation.label ↔
        ∃ g' n, k = GlobalKind.scalar g' ∧ name = some n ∧ n ∈ g.names g' := by
  rw [declarations_finish h, List.map_flatMap]
  simp only [labels_values h]
  constructor
  · refine List.nodup_flatMap.2 ⟨fun k _ => ?_, ?_⟩
    · exact (g.group k).nodup.map fun m n e => Option.some.inj (Prod.ext_iff.1 e).2
    · refine List.Nodup.pairwise_of_forall_ne (by decide) fun k _ k' _ hne p hp hp' => ?_
      obtain ⟨n, -, rfl⟩ := List.mem_map.1 hp
      obtain ⟨n', -, e⟩ := List.mem_map.1 hp'
      exact hne (GlobalKind.scalar_injective (Prod.ext_iff.1 e).1.symm)
  · intro k name
    simp only [List.mem_flatMap, List.mem_map, Prod.mk.injEq]
    constructor
    · rintro ⟨g', -, n, hn, rfl, rfl⟩
      exact ⟨g', n, rfl, rfl, hn⟩
    · rintro ⟨g', n, rfl, rfl, hn⟩
      exact ⟨g', g'.mem_all, n, hn, rfl, rfl⟩

end Globals

end MappingMetadata
