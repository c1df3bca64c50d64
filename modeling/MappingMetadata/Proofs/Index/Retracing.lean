import MappingMetadata.Proofs.Index.Growth
import MappingMetadata.Proofs.Index.Slots

/-!
# Writing the same places again

A second list of writes *retraces* a first when, write for write, it goes to the same slot of the
same site, and writes the same annotation there unless a later write covers it.

**Theorem (`ofKind_retrace`).** Retracing a list of writes right after it changes no list of the
index, not even the order. Every annotation that the first list has left is removed, and written
again at the end; since all of them are, they end up in the order they had.
-/

namespace MappingMetadata.Index

/-- The second list goes to the places of the first, and differs from it only in what is covered
later. -/
inductive Retraces : List Annotation → List Annotation → Prop where
  | nil : Retraces [] []
  | cons {a b : Annotation} {as bs : List Annotation} (hsite : b.site = a.site)
      (hslot : b.kind.slot = a.kind.slot) (hsame : b = a ∨ a.coveredBy as) (h : Retraces as bs) :
      Retraces (a :: as) (b :: bs)

namespace Retraces

variable {as bs : List Annotation}

theorem append_left (ws : List Annotation) (h : Retraces as bs) :
    Retraces (ws ++ as) (ws ++ bs) := by
  induction ws with
  | nil => exact h
  | cons w ws ih => exact .cons rfl rfl (Or.inl rfl) ih

theorem length_eq (h : Retraces as bs) : bs.length = as.length := by
  induction h with
  | nil => rfl
  | cons _ _ _ _ ih => rw [List.length_cons, List.length_cons, ih]

theorem exists_site (h : Retraces as bs) {b : Annotation} (hb : b ∈ bs) :
    ∃ a ∈ as, a.site = b.site := by
  induction h with
  | nil => cases hb
  | cons hsite _ _ _ ih =>
    rcases List.mem_cons.1 hb with rfl | hb
    · exact ⟨_, List.mem_cons_self, hsite.symm⟩
    · obtain ⟨a, ha, hab⟩ := ih hb
      exact ⟨a, List.mem_cons_of_mem _ ha, hab⟩

/-- What is covered depends on the places of the writes only. -/
theorem any_covers (h : Retraces as bs) (c : String) (k : Kind) (site : Option Site) :
    (bs.any fun w => w.covers c k site) = as.any fun w => w.covers c k site := by
  induction h with
  | nil => rfl
  | cons hsite hslot _ _ ih =>
    rw [List.any_cons, List.any_cons, ih]
    simp only [hsite, hslot, Annotation.covers]

theorem coveredBy_eq (h : Retraces as bs) (a : Annotation) : a.coveredBy bs = a.coveredBy as := by
  induction h with
  | nil => rfl
  | cons hsite hslot _ _ ih =>
    unfold Annotation.coveredBy at ih ⊢
    rw [List.any_cons, List.any_cons, ih, hsite, hslot]

theorem lasting_eq (h : Retraces as bs) : lasting bs = lasting as := by
  induction h with
  | nil => rfl
  | @cons a b as bs hsite hslot hsame h ih =>
    have hcov : b.coveredBy bs = a.coveredBy as := by
      rw [h.coveredBy_eq b]
      simp only [hsite, hslot, Annotation.coveredBy]
    rw [lasting, lasting, ih, hcov]
    rcases hsame with rfl | hlater
    · rfl
    · rw [if_pos hlater, if_pos hlater]

end Retraces

theorem mem_of_mem_lasting {as : List Annotation} {a : Annotation} (h : a ∈ lasting as) :
    a ∈ as := by
  induction as with
  | nil => cases h
  | cons b as ih =>
    rw [lasting] at h
    split at h
    · exact List.mem_cons_of_mem _ (ih h)
    · exact (List.mem_cons.1 h).elim (fun e => e ▸ List.mem_cons_self)
        fun h => List.mem_cons_of_mem _ (ih h)

/-- **Retracing changes no list of the index.** -/
theorem ofKind_retrace {as bs : List Annotation} (h : Retraces as bs) (ix : Index) (c : String)
    (k : Kind) : ((ix.writeAll as).writeAll bs).ofKind c k = (ix.writeAll as).ofKind c k := by
  rw [ofKind_writeAll, ofKind_writeAll, h.lasting_eq]
  simp only [h.any_covers]
  -- Whatever the first list has left is covered by the write that has left it.
  have hself : ((lasting as).filter fun a => a.belongs c k).filter
      (fun b => !as.any fun w => w.covers c k b.site) = [] := by
    refine List.filter_eq_nil_iff.2 fun a ha => ?_
    obtain ⟨hlast, hbel⟩ := List.mem_filter.1 ha
    have hcov : a.covers c k a.site := by
      simp [a.covers_of_belongs hbel]
    have hany : (as.any fun w => w.covers c k a.site) = true :=
      List.any_eq_true.2 ⟨a, mem_of_mem_lasting hlast, hcov⟩
    rw [hany]
    exact Bool.false_ne_true
  rw [List.filter_append, List.filter_filter, hself, List.append_nil]
  simp only [Bool.and_self]

/-! ## Classes and flags -/

theorem keys_write (ix : Index) (a : Annotation) :
    (ix.write a).classes.keys = match a.site with
      | some site =>
        if site.className ∈ ix.classes.keys then ix.classes.keys
        else ix.classes.keys ++ [site.className]
      | none => ix.classes.keys := by
  unfold write replace
  cases hs : a.site with
  | none => rfl
  | some site =>
    have hkeys : ∀ ks : List Kind,
        (ks.foldl (fun ix k => ix.removeAt site k) ix).classes.keys = ix.classes.keys := by
      intro ks
      induction ks generalizing ix with
      | nil => rfl
      | cons k ks ih => rw [List.foldl_cons, ih, removeAt, Dict.keys_modify]
    dsimp only
    rw [push, hs]
    dsimp only
    rw [Dict.keys_put, hkeys]

/-- A class once known stays known, and its place among the classes with it. -/
theorem keys_prefix_writeAll (ix : Index) (as : List Annotation) :
    ix.classes.keys <+: (ix.writeAll as).classes.keys :=
  (ix.extends_writeAll as).classes

theorem mem_keys_write_iff (ix : Index) (a : Annotation) (c : String) :
    c ∈ (ix.write a).classes.keys ↔
      c ∈ ix.classes.keys ∨ a.site.map Site.className = some c := by
  rw [keys_write]
  cases a.site with
  | none => simp
  | some site =>
    dsimp only
    rw [Option.map_some, Option.some.injEq]
    split
    · rename_i hmem
      exact ⟨Or.inl, fun h => h.elim id fun e => e ▸ hmem⟩
    · rw [List.mem_append, List.mem_singleton, eq_comm (a := c)]

/-- Writing enters the classes of what is written, and no others. -/
theorem mem_keys_writeAll_iff (ix : Index) (as : List Annotation) (c : String) :
    c ∈ (ix.writeAll as).classes.keys ↔
      c ∈ ix.classes.keys ∨ ∃ a ∈ as, a.site.map Site.className = some c := by
  induction as generalizing ix with
  | nil => simp
  | cons a as ih =>
    rw [writeAll_cons, ih, mem_keys_write_iff, or_assoc, List.exists_mem_cons_iff]

/-- Writes to classes that are all known enter none. -/
theorem keys_writeAll_of_mem {ix : Index} {as : List Annotation}
    (h : ∀ a ∈ as, ∀ site, a.site = some site → site.className ∈ ix.classes.keys) :
    (ix.writeAll as).classes.keys = ix.classes.keys := by
  induction as generalizing ix with
  | nil => rfl
  | cons a as ih =>
    have hwrite : (ix.write a).classes.keys = ix.classes.keys := by
      rw [keys_write]
      cases hs : a.site with
      | none => rfl
      | some site => exact if_pos (h a List.mem_cons_self site hs)
    rw [writeAll_cons, ih, hwrite]
    rw [hwrite]
    exact fun b hb => h b (List.mem_cons_of_mem _ hb)

theorem keys_enter (ix : Index) (c : String) :
    (ix.enter c).classes.keys =
      if c ∈ ix.classes.keys then ix.classes.keys else ix.classes.keys ++ [c] := by
  unfold enter entry?
  cases hc : ix.classes.get? c with
  | some e =>
    have hmem : c ∈ ix.classes.keys := (Dict.mem_keys_iff _ c).2 (by rw [hc]; rfl)
    rw [if_pos hmem]
  | none => rw [Dict.keys_put]

theorem mem_keys_enter (ix : Index) (c : String) : c ∈ (ix.enter c).classes.keys := by
  rw [keys_enter]
  split
  · assumption
  · exact List.mem_append_right _ (List.mem_singleton_self c)

theorem isComplete_eq (ix : Index) (c : String) :
    ix.isComplete c = ((ix.entry? c).getD {}).metadataComplete := by
  unfold isComplete
  cases ix.entry? c <;> rfl

theorem isComplete_removeAt (ix : Index) (site : Site) (k : Kind) (c : String) :
    (ix.removeAt site k).isComplete c = ix.isComplete c := by
  rw [isComplete_eq, isComplete_eq, removeAt, entry?, entry?, Dict.get?_modify]
  split
  · cases ix.classes.get? c <;> rfl
  · rfl

theorem isComplete_push (ix : Index) (a : Annotation) (c : String) :
    (ix.push a).isComplete c = ix.isComplete c := by
  unfold push
  cases a.site with
  | none => rfl
  | some site =>
    rw [isComplete_eq, isComplete_eq, entry?, Dict.get?_put]
    split
    · rename_i hc
      rw [hc]
      rfl
    · rfl

/-- Writing sets no flag and clears none. -/
theorem isComplete_write (ix : Index) (a : Annotation) (c : String) :
    (ix.write a).isComplete c = ix.isComplete c := by
  unfold write replace
  cases a.site with
  | none => rfl
  | some site =>
    dsimp only
    rw [isComplete_push]
    induction a.kind.rivals generalizing ix with
    | nil => rfl
    | cons k ks ih => rw [List.foldl_cons, ih, isComplete_removeAt]

theorem isComplete_writeAll (ix : Index) (as : List Annotation) (c : String) :
    (ix.writeAll as).isComplete c = ix.isComplete c := by
  induction as generalizing ix with
  | nil => rfl
  | cons a as ih => rw [writeAll_cons, ih, isComplete_write]

theorem isComplete_enter (ix : Index) (c c' : String) :
    (ix.enter c).isComplete c' = ix.isComplete c' := by
  unfold enter
  cases hc : ix.entry? c with
  | some e => rfl
  | none =>
    rw [isComplete_eq, isComplete_eq, entry?, Dict.get?_put]
    split
    · rename_i he
      rw [← he, hc]
      rfl
    · rfl

theorem isComplete_markComplete (ix : Index) (c c' : String) :
    (ix.markComplete c).isComplete c' = (ix.isComplete c' || decide (c = c')) := by
  rw [isComplete_eq, isComplete_eq, markComplete, entry?, Dict.get?_put]
  by_cases h : c = c'
  · rw [if_pos h]
    simp [h]
  · rw [if_neg h]
    simp [h, entry?]

end MappingMetadata.Index
