import MappingMetadata.Proofs.Index.Slots

/-!
# Operations confined to classes

An operation on the index is *confined* to some classes when it leaves the entries of all others
alone, and when what it makes of an entry depends on that entry only. Entering, marking, removing
and adding are confined to one class each, and so is a write, to the class of its site.

**Theorem (`Confined.comm`).** Operations that are confined to different classes leave the same
entries behind in either order. What may differ is the order in which classes are entered.
-/

namespace MappingMetadata.Index

/-- The operation changes entries of these classes only, each regardless of the others. -/
structure Confined (classes : List String) (f : Index → Index) : Prop where
  outside : ∀ ix c, c ∉ classes → entry? (f ix) c = ix.entry? c
  inside : ∀ {ix jx c}, ix.entry? c = jx.entry? c → entry? (f ix) c = entry? (f jx) c

variable {cs ds : List String} {f g : Index → Index}

/-! ## Putting operations together -/

theorem confined_id (cs : List String) : Confined cs id := ⟨fun _ _ _ => rfl, id⟩

theorem Confined.mono (h : Confined cs f) (hsub : cs ⊆ ds) : Confined ds f :=
  ⟨fun ix c hc => h.outside ix c fun hmem => hc (hsub hmem), h.inside⟩

theorem Confined.comp (hg : Confined cs g) (hf : Confined cs f) :
    Confined cs fun ix => g (f ix) where
  outside ix c hc := (hg.outside _ c hc).trans (hf.outside ix c hc)
  inside h := hg.inside (hf.inside h)

theorem confined_foldl {α : Type} {f : Index → α → Index} {xs : List α}
    (h : ∀ x ∈ xs, Confined cs fun ix => f ix x) : Confined cs fun ix => xs.foldl f ix := by
  induction xs with
  | nil => exact confined_id cs
  | cons x xs ih =>
    rw [List.forall_mem_cons] at h
    exact (ih h.2).comp h.1

/-- **Operations confined to different classes commute**, as far as the entries go. -/
theorem Confined.comm (hf : Confined cs f) (hg : Confined ds g) (h : cs.Disjoint ds) (ix : Index)
    (c : String) : entry? (f (g ix)) c = entry? (g (f ix)) c := by
  by_cases hc : c ∈ cs
  · have hd : c ∉ ds := fun hd => h hc hd
    rw [hg.outside (f ix) c hd]
    exact hf.inside (hg.outside ix c hd)
  · rw [hf.outside (g ix) c hc]
    exact hg.inside (hf.outside ix c hc).symm

/-! ## The operations -/

theorem confined_singleton {c : String} (change : Option ClassEntry → Option ClassEntry)
    (h : ∀ ix c', entry? (f ix) c' = if c = c' then change (ix.entry? c') else ix.entry? c') :
    Confined [c] f where
  outside ix c' hc := (h ix c').trans (if_neg fun e => hc (List.mem_singleton.2 e.symm))
  inside {ix jx c'} he := by rw [h, h, he]

theorem confined_enter (c : String) : Confined [c] fun ix => ix.enter c := by
  refine confined_singleton (fun e => some (e.getD {})) fun ix c' => ?_
  unfold enter
  cases he : ix.entry? c with
  | some e =>
    by_cases hc : c = c'
    · subst hc
      simp [he]
    · simp [hc]
  | none =>
    by_cases hc : c = c'
    · subst hc
      rw [if_pos rfl, he, entry?, Dict.get?_put, if_pos rfl]
      rfl
    · rw [if_neg hc, entry?, Dict.get?_put, if_neg hc, entry?]

theorem confined_markComplete (c : String) : Confined [c] fun ix => ix.markComplete c := by
  refine confined_singleton (fun e => some { e.getD {} with metadataComplete := true })
    fun ix c' => ?_
  rw [markComplete, entry?, Dict.get?_put]
  split
  · rename_i hc
    rw [hc]
  · rfl

theorem confined_removeAt (site : Site) (k : Kind) :
    Confined [site.className] fun ix => ix.removeAt site k :=
  confined_singleton (Option.map fun e : ClassEntry => e.removeAt site k) fun ix c' =>
    Dict.get?_modify ix.classes site.className _ c'

theorem confined_push {a : Annotation} {site : Site} (h : a.site = some site) :
    Confined [site.className] fun ix => ix.push a := by
  refine confined_singleton (fun e => some ((e.getD {}).push a)) fun ix c' => ?_
  rw [push, h]
  dsimp only
  rw [Index.entry?, Dict.get?_put]
  split
  · rename_i hc
    rw [hc]
  · rfl

/-- A write is confined to the class of its site. -/
theorem confined_write {a : Annotation} (h : ∀ site, a.site = some site → site.className ∈ cs) :
    Confined cs fun ix => ix.write a := by
  unfold write replace
  cases hs : a.site with
  | none => exact confined_id cs
  | some site =>
    have hsub : [site.className] ⊆ cs := fun c hc => List.mem_singleton.1 hc ▸ h site hs
    have hremove : Confined cs fun ix => a.kind.rivals.foldl (fun ix k => ix.removeAt site k) ix :=
      confined_foldl fun k _ => (confined_removeAt site k).mono hsub
    exact ((confined_push hs).mono hsub).comp hremove

/-- Writes are confined to the classes of their sites. -/
theorem confined_writeAll {as : List Annotation}
    (h : ∀ a ∈ as, ∀ site, a.site = some site → site.className ∈ cs) :
    Confined cs fun ix => ix.writeAll as :=
  confined_foldl fun a ha => confined_write (h a ha)

/-- A class to which nothing is written keeps its entry, or stays without one. -/
theorem entry?_writeAll_of_ne {ix : Index} {as : List Annotation} {c : String}
    (h : ∀ a ∈ as, a.site.map Site.className ≠ some c) :
    entry? (ix.writeAll as) c = ix.entry? c := by
  have hconfined : Confined (as.filterMap fun a => a.site.map Site.className) fun ix =>
      ix.writeAll as :=
    confined_writeAll fun a ha site hs => List.mem_filterMap.2 ⟨a, ha, by rw [hs, Option.map_some]⟩
  refine hconfined.outside ix c fun hc => ?_
  obtain ⟨a, ha, hac⟩ := List.mem_filterMap.1 hc
  exact h a ha hac

/-! ## Equal entries -/

theorem ofKind_congr {ix jx : Index} {c : String} (h : ix.entry? c = jx.entry? c) (k : Kind) :
    ix.ofKind c k = jx.ofKind c k := by
  rw [ofKind_eq, ofKind_eq, h]

/-- Indexes with equal entries have the same classes, up to their order. -/
theorem keys_perm {ix jx : Index} (h : ∀ c, ix.entry? c = jx.entry? c) :
    ix.classes.keys.Perm jx.classes.keys := by
  refine (List.perm_ext_iff_of_nodup ix.classes.nodup jx.classes.nodup).2 fun c => ?_
  have hc : ix.classes.get? c = jx.classes.get? c := h c
  rw [← Dict.keys, ← Dict.keys, Dict.mem_keys_iff, Dict.mem_keys_iff, hc]

end MappingMetadata.Index
