import Mathlib.Data.List.Basic
import MappingMetadata.Entity.Writes

/-!
# Slots

An annotation competes with the annotations on its own site whose kinds it is a rival of. Kinds
that compete share a *slot*: a scalar kind and the plural kind that wraps it, the four kinds of
associations, and every other kind by itself (`Kind.mem_rivals_iff`).

**Theorem (`Index.ofKind_writeAll`).** After any list of writes a list of the index holds, in its
old order, what none of the writes has covered, and after that the writes that no later write has
covered, in the order in which they were written.

Everything that follows about documents rests on this: which annotations survive depends only on
the sites and slots of the writes, not on what the index held.
-/

namespace MappingMetadata

/-! ## Kinds that share a slot -/

/-- The kind that stands for all the kinds of a slot. -/
def Kind.slot : Kind → Kind
  | .oneToMany | .manyToOne | .manyToMany => .oneToOne
  | k => k.member.getD k

theorem Kind.mem_rivals_iff (k k' : Kind) : k' ∈ k.rivals ↔ k'.slot = k.slot := by
  have h : ∀ k ∈ all, ∀ k' ∈ all, k' ∈ k.rivals ↔ k'.slot = k.slot := by decide +kernel
  exact h k (mem_all k) k' (mem_all k')

/-! ## One write -/

namespace Annotation

/-- Would writing the annotation remove what stands on a site under a class and a kind? -/
def covers (a : Annotation) (c : String) (k : Kind) (site : Option Site) : Bool :=
  match a.site with
  | some s => s.className = c && k.slot = a.kind.slot && site = some s
  | none => false

/-- Does the annotation belong under a class and a kind? -/
def belongs (a : Annotation) (c : String) (k : Kind) : Bool :=
  a.site.map Site.className = some c && a.kind = k

/-- Does a later write on the same site have the same slot? -/
def coveredBy (a : Annotation) (later : List Annotation) : Bool :=
  later.any fun w => w.site = a.site && w.kind.slot = a.kind.slot

theorem covers_of_belongs {a : Annotation} {c : String} {k : Kind} (h : a.belongs c k)
    (w : Annotation) :
    w.covers c k a.site = (decide (w.site = a.site) && decide (w.kind.slot = a.kind.slot)) := by
  unfold belongs at h
  unfold covers
  rw [Bool.and_eq_true, decide_eq_true_eq, decide_eq_true_eq] at h
  obtain ⟨hc, rfl⟩ := h
  obtain ⟨s, hs, rfl⟩ := Option.map_eq_some_iff.1 hc
  rw [hs]
  cases hw : w.site with
  | none => simp
  | some t =>
    by_cases hts : t = s
    · subst hts
      simp [eq_comm]
    · simp [hts, Ne.symm hts]

end Annotation

namespace Index

theorem ofKind_foldl_removeAt (ks : List Kind) (ix : Index) (site : Site) (c : String) (k : Kind) :
    (ks.foldl (fun ix k => ix.removeAt site k) ix).ofKind c k =
      if site.className = c ∧ k ∈ ks then (ix.ofKind c k).filter fun a => a.site ≠ some site
      else ix.ofKind c k := by
  induction ks generalizing ix with
  | nil => simp
  | cons k₀ ks ih =>
    rw [List.foldl_cons, ih, ofKind_removeAt]
    by_cases hc : site.className = c
    · by_cases hk : k₀ = k
      · by_cases hks : k ∈ ks <;> simp [hc, hk, hks, List.filter_filter]
      · have hk' : ¬ k = k₀ := fun e => hk e.symm
        simp [hc, hk, hk']
    · simp [hc]

/-- The order in which kinds are superseded, and how often, makes no difference. -/
theorem ofKind_replace_congr (ix : Index) (a : Annotation) {ks ks' : List Kind}
    (h : ∀ k, k ∈ ks ↔ k ∈ ks') (c : String) (k : Kind) :
    (ix.replace a ks).ofKind c k = (ix.replace a ks').ofKind c k := by
  unfold replace
  cases hs : a.site with
  | none => rfl
  | some site =>
    rw [ofKind_push _ hs, ofKind_push _ hs, ofKind_foldl_removeAt, ofKind_foldl_removeAt]
    simp only [h]

/-- A write covers the slot of its annotation on its site, and adds the annotation at the end. -/
theorem ofKind_write (ix : Index) (a : Annotation) (c : String) (k : Kind) :
    (ix.write a).ofKind c k =
      ((ix.ofKind c k).filter fun b => !a.covers c k b.site) ++
        if a.belongs c k then [a] else [] := by
  unfold write replace Annotation.covers Annotation.belongs
  cases hs : a.site with
  | none => simp
  | some site =>
    rw [ofKind_push _ hs, ofKind_foldl_removeAt]
    by_cases hc : site.className = c
    · by_cases hslot : k.slot = a.kind.slot
      · have hr : k ∈ a.kind.rivals := (Kind.mem_rivals_iff _ _).2 hslot
        by_cases hk : a.kind = k
        · subst hk; simp [hc, hr]
        · simp [hc, hr, hslot, hk]
      · have hr : k ∉ a.kind.rivals := fun h => hslot ((Kind.mem_rivals_iff _ _).1 h)
        have hk : a.kind ≠ k := fun e => hslot (e ▸ rfl)
        simp [hc, hr, hslot, hk]
    · simp [hc]

/-- What a write leaves on one site: in the slot of the annotation the annotation alone, in other
slots and on other sites what was there. -/
theorem onSite_write (ix : Index) (a : Annotation) (k : Kind) (site : Site) :
    (ix.write a).onSite site.className k site =
      if a.site = some site ∧ a.kind.slot = k.slot then if a.kind = k then [a] else []
      else ix.onSite site.className k site := by
  unfold onSite
  rw [ofKind_write, List.filter_append, List.filter_filter]
  by_cases h : a.site = some site ∧ a.kind.slot = k.slot
  · obtain ⟨hsite, hslot⟩ := h
    have hold : ∀ b ∈ ix.ofKind site.className k,
        ¬ ((decide (b.site = some site) && !a.covers site.className k b.site) = true) := by
      intro b _ hb
      rw [Bool.and_eq_true, decide_eq_true_eq] at hb
      obtain ⟨hbs, hb⟩ := hb
      simp [hsite, hslot, hbs, Annotation.covers] at hb
    rw [List.filter_eq_nil_iff.2 hold, List.nil_append]
    by_cases hk : a.kind = k <;> simp [hsite, hslot, hk, Annotation.belongs]
  · have hold : ∀ b ∈ ix.ofKind site.className k,
        (decide (b.site = some site) && !a.covers site.className k b.site) =
          decide (b.site = some site) := by
      intro b _
      by_cases hbs : b.site = some site
      · have hcovers : a.covers site.className k b.site = false := by
          rw [hbs]
          unfold Annotation.covers
          cases hs : a.site with
          | none => rfl
          | some s =>
            by_cases hss : s = site
            · have hslot : ¬ k.slot = a.kind.slot := fun e => h ⟨hss ▸ hs, e.symm⟩
              simp [hslot]
            · simp [Ne.symm hss]
        simp [hcovers]
      · simp [hbs]
    have hnew : (if a.belongs site.className k then [a] else []).filter
        (fun b => decide (b.site = some site)) = [] := by
      split
      · rename_i hb
        unfold Annotation.belongs at hb
        rw [Bool.and_eq_true, decide_eq_true_eq, decide_eq_true_eq] at hb
        have hs : a.site ≠ some site := fun e => h ⟨e, by rw [hb.2]⟩
        simp [hs]
      · rfl
    rw [List.filter_congr hold, hnew, List.append_nil, if_neg h]

/-! ## Many writes -/

@[simp] theorem writeAll_nil (ix : Index) : ix.writeAll [] = ix := rfl

theorem writeAll_cons (ix : Index) (a : Annotation) (as : List Annotation) :
    ix.writeAll (a :: as) = (ix.write a).writeAll as := rfl

theorem writeAll_append (ix : Index) (as bs : List Annotation) :
    ix.writeAll (as ++ bs) = (ix.writeAll as).writeAll bs := List.foldl_append

/-- The writes that no later write covers. -/
def lasting : List Annotation → List Annotation
  | [] => []
  | a :: as => if a.coveredBy as then lasting as else a :: lasting as

/-- **What writing leaves.** The old annotations that no write covers, in their order, and then
the writes that no later one covers, in the order of writing. -/
theorem ofKind_writeAll (ix : Index) (as : List Annotation) (c : String) (k : Kind) :
    (ix.writeAll as).ofKind c k =
      ((ix.ofKind c k).filter fun b => !as.any fun w => w.covers c k b.site) ++
        (lasting as).filter fun a => a.belongs c k := by
  induction as generalizing ix with
  | nil => simp [lasting]
  | cons a as ih =>
    rw [writeAll_cons, ih, ofKind_write, List.filter_append, List.filter_filter, List.append_assoc]
    congr 1
    · refine List.filter_congr fun b _ => ?_
      simp [List.any_cons, Bool.and_comm]
    · by_cases hb : a.belongs c k
      · -- The new annotation survives exactly when no later write covers its slot.
        have hcov : (as.any fun w => w.covers c k a.site) = a.coveredBy as := by
          simp only [a.covers_of_belongs hb, Annotation.coveredBy]
        by_cases hl : a.coveredBy as <;> simp [hb, hcov, hl, lasting]
      · by_cases hl : a.coveredBy as <;> simp [hb, hl, lasting]

/-- What writing leaves in a list depends only on what was in it. -/
theorem ofKind_writeAll_congr {ix ix' : Index} {c : String} {k : Kind}
    (h : ix'.ofKind c k = ix.ofKind c k) (as : List Annotation) :
    (ix'.writeAll as).ofKind c k = (ix.writeAll as).ofKind c k := by
  rw [ofKind_writeAll, ofKind_writeAll, h]

end Index

end MappingMetadata
