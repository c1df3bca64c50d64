import Mathlib.Data.List.Nodup
import Mathlib.Data.List.Perm.Basic
import MappingMetadata.Index.Operation
import MappingMetadata.Proofs.Assoc
import MappingMetadata.Proofs.Index.Contents
import MappingMetadata.Proofs.Index.Growth

/-!
# The index as a plain list

One list of annotations in the order of insertion holds all that an index holds, for the index
only arranges it: by class and kind it shows the part of the list with that class and kind, in the
same order. On the list every operation is a matter of filtering and appending.

**Theorem (`run_refines`).** Any operations, done on an index of annotations and on the list of
them, give the same answers, and the index then arranges the list. Its classes are those for which
an entry was made, in the order in which that first happened.

An index arranges a list (`Arranges`) when its view by class and kind is right and the list has no
annotation without a site. That is enough: groups left empty and the order of groups do not show
in the view, and since no class and no kind repeats, the groups together are the list again
(`Arranges.toList_perm`), so that counting group by group counts the list.
-/

namespace MappingMetadata

/-- Grouping a list by distinct keys loses nothing. -/
theorem flatMap_filter_perm {α κ : Type} [DecidableEq κ] (f : α → κ) {ks : List κ}
    (hks : ks.Nodup) {xs : List α} (hxs : ∀ x ∈ xs, f x ∈ ks) :
    (ks.flatMap fun k => xs.filter fun x => f x = k).Perm xs := by
  induction ks generalizing xs with
  | nil =>
    have hnil : xs = [] := List.eq_nil_iff_forall_not_mem.2 fun x hx => by cases hxs x hx
    rw [hnil, List.flatMap_nil]
  | cons k ks ih =>
    obtain ⟨hk, hks⟩ := List.nodup_cons.1 hks
    have hrest : (ks.flatMap fun k' => xs.filter fun x => f x = k') =
        ks.flatMap fun k' => (xs.filter fun x => !decide (f x = k)).filter fun x => f x = k' := by
      refine List.flatMap_congr fun k' hk' => ?_
      rw [List.filter_filter]
      refine List.filter_congr fun x _ => ?_
      by_cases hx : f x = k'
      · have hne : ¬ k' = k := fun e => hk (e ▸ hk')
        simp [hx, hne]
      · simp [hx]
    have hcovered : ∀ x ∈ xs.filter fun x => !decide (f x = k), f x ∈ ks := by
      intro x hx
      obtain ⟨hx, hne⟩ := List.mem_filter.1 hx
      exact (List.mem_cons.1 (hxs x hx)).resolve_left (by simpa using hne)
    rw [List.flatMap_cons, hrest]
    exact ((ih hks hcovered).append_left _).trans (List.filter_append_perm _ _)

/-- The class on which an annotation stands. -/
def Annotation.class? (a : Annotation) : Option String := a.site.map Site.className

theorem Annotation.class?_of_site {a : Annotation} {site : Site} (h : a.site = some site) :
    a.class? = some site.className :=
  congrArg (Option.map Site.className) h

theorem ClassEntry.toList_eq_groups (e : ClassEntry) :
    e.toList = e.annotations.keys.flatMap e.ofKind := by
  have hgroup : ∀ p ∈ e.annotations.entries, e.ofKind p.1 = p.2 := by
    intro p hp
    have hget : e.annotations.get? p.1 = some p.2 :=
      Assoc.get?_eq_some_of_mem e.annotations.nodup hp
    rw [ofKind, hget, Option.getD_some]
  rw [toList_eq_flatMap, Dict.keys, List.flatMap_map]
  exact (List.flatMap_congr hgroup).symm

namespace Index

/-! ## Operations on a plain list -/

/-- Do an operation on the plain list of annotations, which has neither classes nor groups. -/
def performFlat (L : List Annotation) : Operation → Reply × List Annotation
  | .push a => (.added a.site.isSome, if a.site.isSome then L ++ [a] else L)
  | .replace a superseded =>
    (.added a.site.isSome,
      if a.site.isSome then
        (L.filter fun b => ¬ (b.site = a.site ∧ b.kind ∈ superseded)) ++ [a]
      else L)
  | .removeAt site k =>
    (.removed (L.countP fun b => b.site = some site ∧ b.kind = k),
      L.filter fun b => ¬ (b.site = some site ∧ b.kind = k))
  | .removeKind k => (.removed (L.countP fun b => b.kind = k), L.filter fun b => b.kind ≠ k)
  | .enter _ => (.done, L)
  | .markComplete _ => (.done, L)

/-! ## Arranging -/

/-- By class and kind, the index shows the annotations of the list in order. -/
structure Arranges (ix : Index) (L : List Annotation) : Prop where
  ofKind : ∀ c k, ix.ofKind c k = L.filter fun a => a.class? = some c ∧ a.kind = k
  sited : ∀ a ∈ L, a.site.isSome

variable {ix : Index} {L : List Annotation}

theorem arranges_empty : empty.Arranges [] := ⟨fun _ _ => rfl, fun a ha => by cases ha⟩

/-- An index that shows the same annotations arranges the same list. -/
theorem Arranges.congr (h : ix.Arranges L) {jx : Index}
    (hofKind : ∀ c k, jx.ofKind c k = ix.ofKind c k) : jx.Arranges L :=
  ⟨fun c k => (hofKind c k).trans (h.ofKind c k), h.sited⟩

theorem Arranges.push (h : ix.Arranges L) {a : Annotation} {site : Site} (ha : a.site = some site) :
    (ix.push a).Arranges (L ++ [a]) where
  ofKind c k := by
    have hclass : a.class? = some site.className := Annotation.class?_of_site ha
    rw [ofKind_push ix ha, h.ofKind, List.filter_append]
    by_cases hk : site.className = c ∧ a.kind = k <;> simp [hclass, hk]
  sited := by
    intro b hb
    rcases List.mem_append.1 hb with hb | hb
    · exact h.sited b hb
    · rw [List.mem_singleton.1 hb, ha, Option.isSome_some]

/-- Removing some kinds from a site: nothing is lost from other sites and other kinds. -/
theorem Arranges.removeAll (h : ix.Arranges L) (site : Site) (ks : List Kind) :
    (ks.foldl (fun ix k => ix.removeAt site k) ix).Arranges
      (L.filter fun b => ¬ (b.site = some site ∧ b.kind ∈ ks)) where
  ofKind c k := by
    rw [ofKind_foldl_removeAt, h.ofKind, List.filter_filter, List.filter_filter]
    split
    · rename_i hk
      refine List.filter_congr fun b _ => ?_
      by_cases hb : b.kind = k
      · simp [hb, hk.2, Bool.and_comm]
      · simp [hb]
    · -- What stands on the site has its class, so none of it is shown here.
      rename_i hk
      refine List.filter_congr fun b _ => ?_
      by_cases hb : b.site = some site ∧ b.kind ∈ ks
      · have hclass : b.class? = some site.className := Annotation.class?_of_site hb.1
        have hother : ¬ (b.class? = some c ∧ b.kind = k) := by
          rintro ⟨hc, rfl⟩
          exact hk ⟨Option.some.inj (hclass.symm.trans hc), hb.2⟩
        simp [hother]
      · simp [hb]
  sited b hb := h.sited b (List.mem_of_mem_filter hb)

theorem Arranges.removeKind (h : ix.Arranges L) (k : Kind) :
    (ix.removeKind k).Arranges (L.filter fun b => b.kind ≠ k) where
  ofKind c k' := by
    rw [ofKind_removeKind, h.ofKind, List.filter_filter]
    split
    · rename_i hk
      refine (List.filter_eq_nil_iff.2 fun b _ => ?_).symm
      simp [hk]
    · rename_i hk
      refine List.filter_congr fun b _ => ?_
      by_cases hb : b.kind = k'
      · simp [hb, Ne.symm hk]
      · simp [hb]
  sited b hb := h.sited b (List.mem_of_mem_filter hb)

/-! ## The groups together -/

/-- The entries in order, each found again by its class. -/
theorem values_eq_map (ix : Index) :
    ix.classes.values = ix.classes.keys.map fun c => (ix.entry? c).getD {} := by
  have hentry : ∀ p ∈ ix.classes.entries, (ix.entry? p.1).getD {} = p.2 := by
    intro p hp
    have hget : ix.entry? p.1 = some p.2 := Assoc.get?_eq_some_of_mem ix.classes.nodup hp
    rw [hget, Option.getD_some]
  rw [Dict.keys, List.map_map]
  exact (List.map_congr_left hentry).symm

theorem ofKind_eq_getD (ix : Index) (c : String) (k : Kind) :
    ix.ofKind c k = ((ix.entry? c).getD {}).ofKind k := by
  rw [ofKind_eq]
  cases ix.entry? c <;> rfl

/-- All annotations, class by class and kind by kind, through the view. -/
theorem toList_eq_groups (ix : Index) :
    ix.toList = ix.classes.keys.flatMap fun c => (ix.kinds c).flatMap (ix.ofKind c) := by
  rw [toList, values_eq_map, List.flatMap_map]
  refine List.flatMap_congr fun c _ => ?_
  rw [ClassEntry.toList_eq_groups]
  exact List.flatMap_congr fun k _ => (ix.ofKind_eq_getD c k).symm

/-- What the view shows has a class and a kind that have been seen. -/
theorem seen_of_mem_ofKind {c : String} {k : Kind} {a : Annotation} (h : a ∈ ix.ofKind c k) :
    c ∈ ix.classes.keys ∧ k ∈ ix.kinds c := by
  rw [ofKind_eq_getD] at h
  have hkind : k ∈ ix.kinds c := by
    rw [kinds, Dict.mem_keys_iff]
    by_contra hnone
    rw [Option.not_isSome_iff_eq_none] at hnone
    rw [ClassEntry.ofKind, hnone] at h
    cases h
  refine ⟨?_, hkind⟩
  rw [Dict.mem_keys_iff]
  by_contra hnone
  rw [Option.not_isSome_iff_eq_none] at hnone
  rw [Index.entry?, hnone] at h
  cases h

theorem Arranges.mem_ofKind (h : ix.Arranges L) {a : Annotation} (ha : a ∈ L) {c : String}
    (hc : a.class? = some c) : a ∈ ix.ofKind c a.kind := by
  rw [h.ofKind]
  exact List.mem_filter.2 ⟨ha, by simp [hc]⟩

/-- Every annotation of the list stands on a class of the index. -/
theorem Arranges.class_mem (h : ix.Arranges L) {a : Annotation} (ha : a ∈ L) :
    a.class? ∈ ix.classes.keys.map some := by
  obtain ⟨site, hsite⟩ := Option.isSome_iff_exists.1 (h.sited a ha)
  have hclass : a.class? = some site.className := Annotation.class?_of_site hsite
  rw [hclass]
  exact List.mem_map_of_mem (seen_of_mem_ofKind (h.mem_ofKind ha hclass)).1

theorem nodup_classes (ix : Index) : (ix.classes.keys.map some).Nodup :=
  List.Nodup.map (fun _ _ => Option.some.inj) ix.classes.nodup

/-- The groups of a class are what the list has on it. -/
theorem Arranges.groups_perm (h : ix.Arranges L) (c : String) :
    ((ix.kinds c).flatMap (ix.ofKind c)).Perm (L.filter fun a => a.class? = some c) := by
  have hgroups : (ix.kinds c).flatMap (ix.ofKind c) = (ix.kinds c).flatMap fun k =>
      (L.filter fun a => a.class? = some c).filter fun a => a.kind = k := by
    refine List.flatMap_congr fun k _ => ?_
    rw [h.ofKind, List.filter_filter]
    refine List.filter_congr fun a _ => ?_
    rw [Bool.decide_and, Bool.and_comm]
  have hseen : ∀ a ∈ L.filter fun a => a.class? = some c, a.kind ∈ ix.kinds c := by
    intro a ha
    rw [List.mem_filter, decide_eq_true_eq] at ha
    exact (seen_of_mem_ofKind (h.mem_ofKind ha.1 ha.2)).2
  rw [hgroups]
  exact flatMap_filter_perm Annotation.kind ((ix.entry? c).getD {}).annotations.nodup hseen

/-- Together the groups are the list again. -/
theorem Arranges.toList_perm (h : ix.Arranges L) : ix.toList.Perm L := by
  have hclasses : (ix.classes.keys.flatMap fun c => (ix.kinds c).flatMap (ix.ofKind c)).Perm
      (ix.classes.keys.flatMap fun c => L.filter fun a => a.class? = some c) :=
    List.Perm.flatMap_left _ fun c _ => h.groups_perm c
  have hsome : (ix.classes.keys.flatMap fun c => L.filter fun a => a.class? = some c) =
      (ix.classes.keys.map some).flatMap fun c => L.filter fun a => a.class? = c := by
    rw [List.flatMap_map]
  rw [toList_eq_groups]
  refine hclasses.trans (hsome ▸ ?_)
  exact flatMap_filter_perm Annotation.class? ix.nodup_classes fun a ha => h.class_mem ha

/-! ## The answers -/

/-- Removing is counted in one group, and nothing else on the site has the kind. -/
theorem Arranges.countAt_eq (h : ix.Arranges L) (site : Site) (k : Kind) :
    ix.countAt site k = L.countP fun b => b.site = some site ∧ b.kind = k := by
  have hlost (bs : List Annotation) :
      bs.length - (bs.filter fun b => b.site ≠ some site).length =
        bs.countP fun b => b.site = some site := by
    have hsplit := bs.length_eq_countP_add_countP (fun b => decide (b.site = some site))
    have hkept : (bs.filter fun b => b.site ≠ some site).length =
        bs.countP fun b => ¬ decide (b.site = some site) = true := by
      rw [List.countP_eq_length_filter]
      simp
    omega
  rw [countAt, ofKind_removeAt, if_pos ⟨rfl, rfl⟩, hlost, h.ofKind, List.countP_filter]
  refine List.countP_congr fun b _ => ?_
  rw [Bool.and_eq_true, decide_eq_true_eq, decide_eq_true_eq, decide_eq_true_eq]
  constructor
  · rintro ⟨hsite, -, hk⟩
    exact ⟨hsite, hk⟩
  · rintro ⟨hsite, hk⟩
    exact ⟨hsite, Annotation.class?_of_site hsite, hk⟩

theorem Arranges.countKind_eq (h : ix.Arranges L) (k : Kind) :
    ix.countKind k = L.countP fun b => b.kind = k := by
  have hgroups : (ix.classes.values.flatMap fun e => e.ofKind k) =
      (ix.classes.keys.map some).flatMap fun c =>
        (L.filter fun a => a.kind = k).filter fun a => a.class? = c := by
    rw [values_eq_map, List.flatMap_map, List.flatMap_map]
    refine List.flatMap_congr fun c _ => ?_
    rw [← ofKind_eq_getD, h.ofKind, List.filter_filter]
    refine List.filter_congr fun a _ => ?_
    rw [Bool.decide_and]
  have hclass : ∀ a ∈ L.filter fun a => a.kind = k, a.class? ∈ ix.classes.keys.map some :=
    fun a ha => h.class_mem (List.mem_of_mem_filter ha)
  have hperm := flatMap_filter_perm Annotation.class? ix.nodup_classes hclass
  rw [countKind, hgroups, hperm.length_eq, List.countP_eq_length_filter]

/-! ## Steps and runs -/

/-- **One step.** An operation on the index and on the list gives the same answer, and the index
arranges the list that results. -/
theorem Arranges.perform (h : ix.Arranges L) (op : Operation) :
    (ix.perform op).1 = (performFlat L op).1 ∧
      (ix.perform op).2.Arranges (performFlat L op).2 := by
  cases op with
  | push a =>
    refine ⟨rfl, ?_⟩
    rw [Index.perform, performFlat]
    cases ha : a.site with
    | none => simpa [Index.push, ha] using h
    | some site => exact h.push ha
  | replace a superseded =>
    refine ⟨rfl, ?_⟩
    rw [Index.perform, performFlat]
    cases ha : a.site with
    | none => simpa [Index.replace, ha] using h
    | some site =>
      rw [Index.replace, ha]
      exact (h.removeAll site superseded).push ha
  | removeAt site k =>
    refine ⟨congrArg Reply.removed (h.countAt_eq site k), ?_⟩
    have hremoved := h.removeAll site [k]
    simp only [List.mem_singleton] at hremoved
    exact hremoved
  | removeKind k => exact ⟨congrArg Reply.removed (h.countKind_eq k), h.removeKind k⟩
  | enter c => exact ⟨rfl, h.congr fun c' k => ofKind_enter ix c c' k⟩
  | markComplete c => exact ⟨rfl, h.congr fun c' k => ofKind_markComplete ix c c' k⟩

theorem Arranges.run (h : ix.Arranges L) (ops : List Operation) :
    (Operation.run Index.perform ix ops).1 = (Operation.run performFlat L ops).1 ∧
      (Operation.run Index.perform ix ops).2.Arranges (Operation.run performFlat L ops).2 := by
  induction ops generalizing ix L with
  | nil => exact ⟨rfl, h⟩
  | cons op ops ih =>
    obtain ⟨hreply, hstep⟩ := h.perform op
    obtain ⟨hreplies, hrun⟩ := ih hstep
    exact ⟨congrArg₂ List.cons hreply hreplies, hrun⟩

theorem ofList_concat (as : List Annotation) (a : Annotation) :
    ofList (as ++ [a]) = (ofList as).push a := List.foldl_append

theorem arranges_ofList (as : List Annotation) :
    (ofList as).Arranges (as.filter fun a => a.site.isSome) := by
  induction as using List.reverseRecOn with
  | nil => exact arranges_empty
  | append_singleton as a ih =>
    rw [ofList_concat, List.filter_append]
    cases ha : a.site with
    | none => simpa [Index.push, ha] using ih
    | some site => simpa [ha] using ih.push ha

/-! ## The classes -/

/-- The classes of an index are those named, in the order in which they are first named. -/
def Names (ix : Index) (cs : List String) : Prop := ix.classes.keys = cs.eraseDups

variable {cs : List String}

/-- Naming more classes leaves the order of those named before. -/
theorem Names.extend (h : ix.Names cs) {jx : Index} {more : List String}
    (hmore : jx.Names (cs ++ more)) : ix.classes.keys <+: jx.classes.keys := by
  unfold Names at h hmore
  rw [h, hmore, List.eraseDups_append]
  exact List.prefix_append _ _

theorem Names.put (h : ix.Names cs) (c : String) (e : ClassEntry) :
    Names ⟨ix.classes.put c e⟩ (cs ++ [c]) := by
  unfold Names at h ⊢
  rw [Dict.keys_put, h, eraseDups_concat]
  simp only [List.mem_eraseDups]

theorem Names.push (h : ix.Names cs) (a : Annotation) :
    (ix.push a).Names (cs ++ a.class?.toList) := by
  unfold Annotation.class? Index.push
  cases a.site with
  | none => simpa using h
  | some site => exact h.put _ _

theorem Names.removeAll (h : ix.Names cs) (site : Site) (ks : List Kind) :
    (ks.foldl (fun ix k => ix.removeAt site k) ix).Names cs := by
  induction ks generalizing ix with
  | nil => exact h
  | cons k ks ih => exact ih ((Dict.keys_modify _ _ _).trans h)

theorem Names.replace (h : ix.Names cs) (a : Annotation) (superseded : List Kind) :
    (ix.replace a superseded).Names (cs ++ a.class?.toList) := by
  cases ha : a.site with
  | none => simpa [Index.replace, Annotation.class?, ha] using h
  | some site =>
    have hpushed := (h.removeAll site superseded).push a
    rwa [Index.replace, ha]

theorem Names.enter (h : ix.Names cs) (c : String) : (ix.enter c).Names (cs ++ [c]) := by
  unfold Index.enter
  cases hc : ix.entry? c with
  | none => exact h.put c {}
  | some e =>
    have hmem : c ∈ cs := by
      rw [← List.mem_eraseDups, ← show ix.classes.keys = cs.eraseDups from h, Dict.mem_keys_iff]
      exact Option.isSome_of_eq_some hc
    exact h.trans ((eraseDups_concat cs c).trans (if_pos hmem)).symm

/-- An operation names at most one class, and unnames none. -/
theorem Names.perform (h : ix.Names cs) (op : Operation) :
    (ix.perform op).2.Names (cs ++ op.class?.toList) := by
  cases op with
  | push a => exact h.push a
  | replace a superseded => exact h.replace a superseded
  | removeAt site k =>
    rw [Operation.class?, Option.toList_none, List.append_nil]
    exact h.removeAll site [k]
  | removeKind k =>
    rw [Operation.class?, Option.toList_none, List.append_nil]
    exact (Dict.keys_mapValues _ _).trans h
  | enter c => exact h.enter c
  | markComplete c => exact h.put c _

theorem Names.run (h : ix.Names cs) (ops : List Operation) :
    (Operation.run Index.perform ix ops).2.Names (cs ++ ops.filterMap Operation.class?) := by
  induction ops generalizing ix cs with
  | nil => rwa [List.filterMap_nil, List.append_nil]
  | cons op ops ih =>
    have hops : cs ++ (op :: ops).filterMap Operation.class? =
        (cs ++ op.class?.toList) ++ ops.filterMap Operation.class? := by
      cases hc : op.class? <;> simp [hc]
    rw [hops]
    exact ih (h.perform op)

theorem names_ofList (as : List Annotation) :
    (ofList as).Names (as.filterMap Annotation.class?) := by
  induction as using List.reverseRecOn with
  | nil => rfl
  | append_singleton as a ih =>
    have hclasses : (as ++ [a]).filterMap Annotation.class? =
        as.filterMap Annotation.class? ++ a.class?.toList := by
      rw [List.filterMap_append]
      cases hc : a.class? <;> simp [hc]
    rw [ofList_concat, hclasses]
    exact ih.push a

/-! ## Reading -/

/-- All that is read from an index is read from the list of annotations, and its classes are those
of the list of classes in the order of first occurrence. -/
structure ReadsAs (ix : Index) (L : List Annotation) (cs : List String) : Prop where
  ofKind : ∀ c k, ix.ofKind c k = L.filter fun a => a.class? = some c ∧ a.kind = k
  onSite : ∀ c k site, ix.onSite c k site =
    L.filter fun a => a.class? = some c ∧ a.kind = k ∧ a.site = some site
  size : ix.size = L.length
  /-- The access type of a class is the first that is stated on the class itself and can be
  parsed. -/
  access : ∀ c, ix.access? c =
    (L.filter fun a => a.kind = .access ∧ a.site = some (.onClass c)).findSome?
      fun a => (a.string? "value").bind Access.parse?
  classes : ix.classes.keys = cs.eraseDups

theorem Arranges.readsAs (h : ix.Arranges L) (hcs : ix.Names cs) : ix.ReadsAs L cs where
  ofKind := h.ofKind
  onSite c k site := by
    rw [onSite, h.ofKind, List.filter_filter]
    refine List.filter_congr fun a _ => ?_
    rw [← Bool.decide_and]
    exact decide_eq_decide.2 (by rw [and_comm, and_assoc])
  size := h.toList_perm.length_eq
  access c := by
    rw [access?, onSite, h.ofKind, List.filter_filter]
    refine congrArg (List.findSome? _) (List.filter_congr fun a _ => ?_)
    rw [← Bool.decide_and, decide_eq_decide]
    constructor
    · rintro ⟨hsite, -, hk⟩
      exact ⟨hk, hsite⟩
    · rintro ⟨hk, hsite⟩
      exact ⟨hsite, Annotation.class?_of_site hsite, hk⟩
  classes := hcs

/-- **The index refines a plain list.** Start with the index of any annotations and with the list
of those that have a site, and do the same operations on both. The answers are the same, all that
is read from the index is read from the list, and the classes are those that were entered, in the
order in which they were first entered; operations that follow do not take any of them away. -/
theorem run_refines (as : List Annotation) (ops : List Operation) :
    let arranged := Operation.run perform (ofList as) ops
    let flat := Operation.run performFlat (as.filter fun a => a.site.isSome) ops
    arranged.1 = flat.1 ∧
      arranged.2.ReadsAs flat.2
        (as.filterMap Annotation.class? ++ ops.filterMap Operation.class?) ∧
      ∀ more, arranged.2.classes.keys <+:
        (Operation.run perform (ofList as) (ops ++ more)).2.classes.keys := by
  intro arranged flat
  obtain ⟨hreplies, harranges⟩ := (arranges_ofList as).run ops
  have hnames := (names_ofList as).run ops
  refine ⟨hreplies, harranges.readsAs hnames, fun more => ?_⟩
  have hmore := (names_ofList as).run (ops ++ more)
  rw [List.filterMap_append, ← List.append_assoc] at hmore
  exact hnames.extend hmore

end Index

end MappingMetadata
