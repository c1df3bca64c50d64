import Mathlib.Data.List.Nodup
import MappingMetadata.Globals.Operation
import MappingMetadata.Proofs.Codec.Annotations
import MappingMetadata.Proofs.Globals.Appending
import MappingMetadata.Proofs.Globals.Harvesting
import MappingMetadata.Proofs.Index.Arranging
import MappingMetadata.Session

/-!
# Collecting what was finished

Finishing wraps the declarations of a kind when there are several; collecting takes wrappers apart
again. Between the two the finished annotations stand on some class of an index, which keeps them
kind by kind. Since finishing yields at most one annotation of a kind, the index keeps their order.

**Theorem (`collect_finish`).** Put the finished annotations of a registry on any class. An empty
registry that collects them becomes the same registry, and a session over them finishes the same
list.

This rests on an invariant of the registries that can be reached (`proper_ofOperations`): each
declaration has the kind and the name under which it is registered, and no site. A declaration
kept under another name than its own would be collected under its own name.
-/

namespace MappingMetadata

/-- Putting pairs one after another makes the map of them. -/
theorem Dict.foldl_put {κ ν : Type} [DecidableEq κ] (ps : List (κ × ν)) :
    ps.foldl (fun m p => m.put p.1 p.2) ({} : Dict κ ν) = ofList ps := by
  induction ps using List.reverseRecOn with
  | nil => rfl
  | append_singleton ps p ih =>
    rw [List.foldl_append, ih]
    simp only [ofList, Assoc.ofList_concat]
    rfl

/-! ## Indexes that keep the order -/

/-- Adding to the contents of the only key adds at the end. -/
theorem Assoc.flatMap_put_only {κ ν β : Type} [DecidableEq κ] (f : ν → List β) {m : List (κ × ν)}
    (hm : (keys m).Nodup) {k : κ} (hkeys : ∀ k' ∈ keys m, k' = k) {v : ν} {more : List β}
    (h : f v = ((get? m k).map f).getD [] ++ more) :
    ((put m k v).flatMap fun p => f p.2) = (m.flatMap fun p => f p.2) ++ more := by
  match m with
  | [] => simpa [put, get?] using h
  | [(k₀, v₀)] =>
    have hk : k₀ = k := hkeys k₀ List.mem_cons_self
    simpa [put, get?, hk] using h
  | p :: q :: m =>
    have hp : p.1 = k := hkeys p.1 List.mem_cons_self
    have hq : q.1 = k := hkeys q.1 (List.mem_cons_of_mem _ List.mem_cons_self)
    exact absurd (hp.trans hq.symm ▸ List.mem_cons_self) (List.nodup_cons.1 hm).1

/-- An annotation of a kind that was not there comes last. -/
theorem ClassEntry.toList_push_of_new {e : ClassEntry} {a : Annotation}
    (h : a.kind ∉ e.annotations.keys) : (e.push a).toList = e.toList ++ [a] := by
  have hnone : e.annotations.get? a.kind = none := by
    rwa [Dict.mem_keys_iff, Option.not_isSome_iff_eq_none] at h
  have hempty : e.ofKind a.kind = [] := by rw [ofKind, hnone, Option.getD_none]
  have hput : (e.push a).annotations.entries = e.annotations.entries ++ [(a.kind, [a])] := by
    rw [push, hempty]
    exact Assoc.put_of_not_mem h _
  rw [toList_eq_flatMap, toList_eq_flatMap, hput, List.flatMap_append, List.flatMap_singleton]

namespace Index

/-- In an index of one class, an annotation of a kind that was not there comes last. -/
theorem toList_push_of_new {ix : Index} {a : Annotation} {site : Site} (ha : a.site = some site)
    (hclass : ∀ c ∈ ix.classes.keys, c = site.className)
    (hkind : a.kind ∉ ix.kinds site.className) : (ix.push a).toList = ix.toList ++ [a] := by
  have hput : ix.push a =
      ⟨ix.classes.put site.className (((ix.entry? site.className).getD {}).push a)⟩ := by
    rw [push, ha]
  rw [hput, toList_eq_flatMap, toList_eq_flatMap]
  refine Assoc.flatMap_put_only ClassEntry.toList ix.classes.nodup hclass ?_
  rw [ClassEntry.toList_push_of_new hkind]
  congr 1
  change ((ix.classes.get? site.className).getD {}).toList =
    ((ix.classes.get? site.className).map ClassEntry.toList).getD []
  cases ix.classes.get? site.className <;> rfl

theorem kinds_push (ix : Index) {a : Annotation} {site : Site} (h : a.site = some site) :
    (ix.push a).kinds site.className =
      if a.kind ∈ ix.kinds site.className then ix.kinds site.className
      else ix.kinds site.className ++ [a.kind] := by
  have hentry : Index.entry? (ix.push a) site.className =
      some (((ix.entry? site.className).getD {}).push a) := by
    rw [push, h]
    exact (Dict.get?_put _ _ _ _).trans (if_pos rfl)
  rw [kinds, hentry]
  exact Dict.keys_put _ _ _

/-- Annotations of different kinds on one class are listed in their order. -/
theorem toList_ofList_of_nodup {c : String} {as : List Annotation}
    (hclass : ∀ a ∈ as, a.class? = some c) (hkinds : (as.map Annotation.kind).Nodup) :
    (ofList as).toList = as ∧ (ofList as).kinds c = as.map Annotation.kind := by
  induction as using List.reverseRecOn with
  | nil => exact ⟨rfl, rfl⟩
  | append_singleton as a ih =>
    rw [List.map_append, List.nodup_append] at hkinds
    rw [List.forall_mem_append, List.forall_mem_singleton] at hclass
    obtain ⟨hlist, hseen⟩ := ih hclass.1 hkinds.1
    obtain ⟨site, hsite, rfl⟩ := Option.map_eq_some_iff.1 hclass.2
    have hnew : a.kind ∉ (ofList as).kinds site.className := by
      rw [hseen]
      exact fun hmem => hkinds.2.2 _ hmem _ List.mem_cons_self rfl
    have honly : ∀ c ∈ (ofList as).classes.keys, c = site.className := by
      intro c hc
      rw [names_ofList as, List.mem_eraseDups] at hc
      obtain ⟨b, hb, hbc⟩ := List.mem_filterMap.1 hc
      exact Option.some.inj (hbc.symm.trans (hclass.1 b hb))
    rw [ofList_concat, toList_push_of_new hsite honly hnew, kinds_push _ hsite, if_neg hnew,
      hlist, hseen, List.map_append]
    exact ⟨rfl, rfl⟩

end Index

/-- The annotations that finish different kinds of declarations are of different kinds. -/
theorem GlobalKind.eq_of_kind {g g' : GlobalKind} {k : Kind} (h : k = g.scalar ∨ k = g.wrapper)
    (h' : k = g'.scalar ∨ k = g'.wrapper) : g = g' := by
  rcases h with rfl | rfl <;> rcases h' with h' | h'
  · exact scalar_injective h'
  · exact absurd h'.symm (g'.wrapper_ne_scalar g)
  · exact absurd h' (g.wrapper_ne_scalar g')
  · cases g <;> cases g' <;> first | rfl | cases h'

namespace Globals

open BuiltGlobal

variable {g : Globals}

/-! ## Registries that can be reached -/

theorem proper_empty : empty.Proper := fun k name a ha => by cases ha

theorem Proper.register (h : g.Proper) {b : BuiltGlobal} (hb : b.Proper) :
    (g.register b.kind b.name b.annotation).Proper := by
  intro k name a ha
  rw [get?_register] at ha
  split at ha
  · rename_i heq
    obtain ⟨rfl, rfl⟩ := heq
    cases ha
    exact ⟨hb.kind, hb.name, hb.site⟩
  · exact h k name a ha

theorem Proper.registerBuilt (h : g.Proper) {bs : List BuiltGlobal} (hbs : ∀ b ∈ bs, b.Proper) :
    (g.registerBuilt bs).Proper := by
  induction bs generalizing g with
  | nil => exact h
  | cons b bs ih =>
    rw [List.forall_mem_cons] at hbs
    exact ih (h.register hbs.1) hbs.2

theorem Proper.registerAll (h : g.Proper) (as : List Annotation) : (g.registerAll as).1.Proper := by
  induction as generalizing g with
  | nil => exact h
  | cons a as ih =>
    rw [Globals.registerAll, registerOwn]
    cases hkey : key a with
    | error e => exact h
    | ok p =>
      have hb : registration a = .ok ⟨p.1, p.2, a.detached⟩ := by rw [registration, hkey]; rfl
      exact ih (h.register (proper_of_registration hb))

theorem collect_snd (g : Globals) (ix : Index) :
    (g.collect ix).2 = (g.registerAll (harvest ix)).1 := by
  unfold collect
  dsimp only
  split <;> rename_i h <;> rw [h]

/-- No operation, failing or not, registers a declaration under another kind or name. -/
theorem Proper.perform (h : g.Proper) (op : Operation) : (g.perform op).2.Proper := by
  cases op with
  | register a =>
    rw [Globals.perform]
    cases hkey : key a with
    | error e => exact h
    | ok p =>
      have hb : registration a = .ok ⟨p.1, p.2, a.detached⟩ := by rw [registration, hkey]; rfl
      exact h.register (proper_of_registration hb)
  | declare declarations path d =>
    rw [Globals.perform]
    cases hbuilt : declarations.build path d with
    | error e => exact h
    | ok bs => exact h.registerBuilt (Declaration.GlobalDeclarations.proper_build hbuilt)
  | collect ix =>
    rw [show (g.perform (.collect ix)).2 = (g.collect ix).2 from rfl, collect_snd]
    exact h.registerAll (harvest ix)

theorem proper_ofOperations (ops : List Operation) : (ofOperations ops).Proper := by
  suffices h : ∀ g : Globals, g.Proper → (ops.foldl (fun g op => (g.perform op).2) g).Proper from
    h empty proper_empty
  induction ops with
  | nil => exact fun g h => h
  | cons op ops ih => exact fun g h => ih _ (h.perform op)

/-! ## What is finished -/

/-- The declarations of a registry, as they are registered. -/
def built (g : Globals) : List BuiltGlobal := g.toList.map fun p => ⟨p.1, p.2.1, p.2.2⟩

theorem ofKind_built (g : Globals) (k : GlobalKind) :
    ofKind g.built k = (g.group k).entries.map fun p => ⟨k, p.1, p.2⟩ := by
  unfold ofKind built toList GlobalKind.all
  cases k <;> simp [List.filter_append, List.filter_map, Function.comp_def]

/-- Registering its declarations makes a registry again. -/
theorem registerBuilt_built (g : Globals) : empty.registerBuilt g.built = g := by
  have hgroup : (empty.registerBuilt g.built).group = g.group := by
    funext k
    rw [group_registerBuilt, ofKind_built, List.foldl_map]
    exact (Dict.foldl_put _).trans (Dict.ofList_entries (g.group k))
  exact congrArg Globals.mk hgroup

theorem kind_ofItems {k : GlobalKind} {as : List Annotation} (h : ∀ a ∈ as, a.kind = k.scalar)
    {a : Annotation} (ha : Annotation.ofItems k.wrapper Annotation.withSite none as = some a) :
    a.kind = k.scalar ∨ a.kind = k.wrapper := by
  match as with
  | [] => cases ha
  | [b] =>
    cases ha
    exact Or.inl (h b List.mem_cons_self)
  | b :: b' :: as =>
    cases ha
    exact Or.inr rfl

/-- Finishing yields at most one annotation of a kind. -/
theorem nodup_kinds_finish (h : g.Proper) : (g.finish.map Annotation.kind).Nodup := by
  have hkind : ∀ k a, Annotation.ofItems k.wrapper Annotation.withSite none (g.group k).values =
      some a → a.kind = k.scalar ∨ a.kind = k.wrapper :=
    fun k a => kind_ofItems fun b hb => (h.of_mem_values hb).1
  rw [finish, List.map_filterMap]
  refine List.Pairwise.filterMap _ (fun k k' hne b hb b' hb' e => hne ?_)
    (show GlobalKind.all.Nodup by decide)
  obtain ⟨a, ha, rfl⟩ := Option.map_eq_some_iff.1 hb
  obtain ⟨a', ha', rfl⟩ := Option.map_eq_some_iff.1 hb'
  exact GlobalKind.eq_of_kind (hkind k a ha) (e ▸ hkind k' a' ha')

/-- The declarations in a proper registry are registered as they were. -/
theorem map_registration_values (h : g.Proper) (k : GlobalKind) :
    (g.group k).values.map registration =
      (g.group k).entries.map fun p => .ok ⟨k, p.1, p.2⟩ := by
  rw [Dict.values, List.map_map]
  refine List.map_congr_left fun p hp => ?_
  have hget : g.get? k p.1 = some p.2 := Assoc.get?_eq_some_of_mem (g.group k).nodup hp
  obtain ⟨hkind, hname, hsite⟩ := h k p.1 p.2 hget
  have hdetached : p.2.detached = p.2 := Annotation.withSite_none hsite
  exact registration_eq_ok_iff.2 ⟨hkind, hname, hdetached.symm⟩

/-- Putting an annotation on a site makes no difference to what it registers. -/
theorem map_registration_withSite (a : Annotation) (site : Option Site) :
    (a.withSite site).declarations.map registration = a.declarations.map registration := by
  have hkind : (a.withSite site).kind = a.kind := rfl
  have hmembers : (a.withSite site).members = a.members := rfl
  unfold Annotation.declarations
  rw [hkind, hmembers]
  split
  · rfl
  · rfl

/-! ## What is collected -/

/-- The finished annotations of a registry on a class. -/
def finishOn (g : Globals) (c : String) : Index :=
  .ofList (g.finish.map fun a => a.withSite (some (.onClass c)))

theorem toList_finishOn (h : g.Proper) (c : String) :
    (g.finishOn c).toList = g.finish.map fun a => a.withSite (some (.onClass c)) := by
  refine (Index.toList_ofList_of_nodup (c := c) ?_ ?_).1
  · rw [List.forall_mem_map]
    exact fun a _ => rfl
  · rw [List.map_map]
    exact nodup_kinds_finish h

theorem mapM_harvest_finishOn (h : g.Proper) (c : String) :
    (harvest (g.finishOn c)).mapM registration = .ok g.built := by
  have hmap : (harvest (g.finishOn c)).map registration = g.built.map .ok := by
    calc (harvest (g.finishOn c)).map registration
        = (g.finish.flatMap Annotation.declarations).map registration := by
          rw [harvest, toList_finishOn h, List.flatMap_map, List.map_flatMap, List.map_flatMap]
          exact List.flatMap_congr fun a _ => map_registration_withSite a _
      _ = GlobalKind.all.flatMap fun k => (g.group k).entries.map fun p => .ok ⟨k, p.1, p.2⟩ := by
          rw [declarations_finish h, List.map_flatMap]
          exact List.flatMap_congr fun k _ => map_registration_values h k
      _ = g.built.map .ok := by
          rw [built, toList, List.map_map, List.map_flatMap]
          refine List.flatMap_congr fun k _ => ?_
          rw [List.map_map]
          rfl
  have hall : List.Forall₂ Eq ((harvest (g.finishOn c)).map registration) (g.built.map .ok) :=
    hmap ▸ List.forall₂_same.2 fun _ _ => rfl
  rw [List.forall₂_map_left_iff, List.forall₂_map_right_iff] at hall
  exact Outcome.mapM_eq_ok_iff.2 hall

/-- **Collecting what was finished gives the registry again.** Take any registry that operations
have filled, and put its finished annotations on any class. Collecting them into an empty registry
counts its declarations and makes the same registry, and a session started over them finishes
them again. -/
theorem collect_finish (ops : List Operation) (c : String) (settings : Settings) :
    let g := ofOperations ops
    let ix := Index.ofList (g.finish.map fun a => a.withSite (some (.onClass c)))
    empty.collect ix = (.ok g.size, g) ∧
      ∃ s, Session.ofIndex settings ix = .ok s ∧ s.finish.globals = g.finish := by
  intro g ix
  have hbuilt : (harvest ix).mapM registration = .ok g.built :=
    mapM_harvest_finishOn (proper_ofOperations ops) c
  have hall : empty.registerAll (harvest ix) = (g, none) := by
    rw [registerAll_of_mapM hbuilt, registerBuilt_built]
  have hcount : (harvest ix).length = g.size := by
    rw [(Outcome.mapM_eq_ok_iff.1 hbuilt).length_eq, built, List.length_map, size]
  constructor
  · rw [collect, hall]
    exact Prod.ext (congrArg Except.ok hcount) rfl
  · rw [Session.ofIndex, hall]
    exact ⟨_, rfl, rfl⟩

end Globals

end MappingMetadata
