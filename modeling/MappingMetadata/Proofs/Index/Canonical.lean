import MappingMetadata.Globals.Registry
import MappingMetadata.Proofs.Annotation.Nesting
import MappingMetadata.Proofs.Index.Contents

/-!
# Canonical indexes

What documents write into an empty index has a form that later documents can rely on.

**Theorem (`Canonical.write`).** Writing a sound annotation to a canonical index gives a canonical
index. `Annotation.Sound` is what this takes of one annotation; that it sits alone in its slot
comes from the write itself, which removes the whole slot before it adds.
-/

namespace MappingMetadata

/-- There is a name, and it is not blank. -/
def Annotation.Named (a : Annotation) : Prop := ∃ n, a.name? = some n ∧ ¬ Text.isBlank n

/-- What an annotation must be like to be written. -/
structure Annotation.Sound (dedupe : Bool) (a : Annotation) : Prop where
  tidy : a.Tidy
  /-- A wrapper holds at least two members, all of the kind that it wraps. -/
  wrapped : ∀ k, a.kind.member = some k → 2 ≤ a.members.length ∧ ∀ m ∈ a.members, m.kind = k
  notGlobal : ∀ g : GlobalKind, a.kind ≠ g.scalar ∧ a.kind ≠ g.wrapper
  named : ∀ f : Override.Family, a.kind = f.scalar → a.Named
  /-- The names in a wrapper of overrides; different ones when repeated names are collapsed. -/
  names : ∀ f : Override.Family, a.kind = f.wrapper →
    (∀ m ∈ a.members, m.Named) ∧ (dedupe → (a.members.map Annotation.name?).Nodup)

namespace Index

/-- What holds of an index that was written by documents alone. -/
structure Canonical (dedupe : Bool) (ix : Index) : Prop where
  /-- Annotations stand under their own kind and the class of their site. -/
  placed : ∀ c k, ∀ a ∈ ix.ofKind c k, a.kind = k ∧ a.site.map Site.className = some c
  /-- No two annotations share a site and a slot. -/
  single : ix.toList.Pairwise fun a b => a.site = b.site → a.kind.slot ≠ b.kind.slot
  sound : ∀ a ∈ ix.toList, a.Sound dedupe

variable {dedupe : Bool} {ix : Index}

theorem canonical_empty : Canonical dedupe empty where
  placed := by simp
  single := List.Pairwise.nil
  sound := fun a ha => by cases ha

/-- Entering a class and marking it keep an index canonical. -/
theorem Canonical.of_contents {ix' : Index} (h : ix.Canonical dedupe)
    (hof : ∀ c k, ix'.ofKind c k = ix.ofKind c k) (hperm : ix'.toList.Perm ix.toList) :
    ix'.Canonical dedupe where
  placed c k a ha := h.placed c k a (hof c k ▸ ha)
  single := (hperm.pairwise_iff fun hab e => (hab e.symm).symm).2 h.single
  sound a ha := h.sound a (hperm.mem_iff.1 ha)

theorem Canonical.enter (h : ix.Canonical dedupe) (c : String) : (ix.enter c).Canonical dedupe :=
  h.of_contents (fun _ _ => ofKind_enter ..) (toList_enter_perm ix c)

theorem Canonical.markComplete (h : ix.Canonical dedupe) (c : String) :
    (ix.markComplete c).Canonical dedupe :=
  h.of_contents (fun _ _ => ofKind_markComplete ..) (toList_markComplete_perm ix c)

/-- A write leaves some of the old annotations, and the new one. -/
theorem mem_toList_write {a b : Annotation} (h : b ∈ (ix.write a).toList) :
    b = a ∨ b ∈ ix.toList := by
  obtain ⟨c, k, hb⟩ := (mem_toList_iff _ b).1 h
  rw [ofKind_write, List.mem_append] at hb
  rcases hb with hb | hb
  · exact Or.inr (mem_toList_of_mem_ofKind (List.mem_of_mem_filter hb))
  · split at hb
    · exact Or.inl (List.mem_singleton.1 hb)
    · cases hb

theorem mem_toList_writeAll {as : List Annotation} {b : Annotation}
    (h : b ∈ (ix.writeAll as).toList) : b ∈ as ∨ b ∈ ix.toList := by
  induction as generalizing ix with
  | nil => exact Or.inr h
  | cons a as ih =>
    rcases ih h with h | h
    · exact Or.inl (List.mem_cons_of_mem _ h)
    · rcases mem_toList_write h with rfl | h
      · exact Or.inl List.mem_cons_self
      · exact Or.inr h

/-- Writing a sound annotation keeps an index canonical. -/
theorem Canonical.write (h : ix.Canonical dedupe) {a : Annotation} (ha : a.Sound dedupe) :
    (ix.write a).Canonical dedupe where
  placed c k b hb := by
    rw [ofKind_write, List.mem_append] at hb
    rcases hb with hb | hb
    · exact h.placed c k b (List.mem_of_mem_filter hb)
    · split at hb
      · rename_i hbel
        rw [List.mem_singleton.1 hb]
        simpa [and_comm, Annotation.belongs] using hbel
      · cases hb
  single := by
    unfold Index.write replace
    cases hs : a.site with
    | none => exact h.single
    | some site =>
      have hsub := toList_foldl_removeAt_sublist a.kind.rivals ix site
      refine ((toList_push_perm _ hs).pairwise_iff fun hab e => (hab e.symm).symm).2 ?_
      rw [List.pairwise_append]
      refine ⟨h.single.sublist hsub, List.pairwise_singleton _ _, fun b hb a' ha' => ?_⟩
      rw [List.mem_singleton.1 ha', hs]
      intro hsite hslot
      -- The slot of the new annotation has just been emptied.
      obtain ⟨c, k, hb⟩ := (mem_toList_iff _ b).1 hb
      rw [ofKind_foldl_removeAt] at hb
      have hbold : b ∈ ix.ofKind c k := by
        split at hb
        · exact List.mem_of_mem_filter hb
        · exact hb
      obtain ⟨hk, hc⟩ := h.placed c k b hbold
      rw [hsite, Option.map_some, Option.some.injEq] at hc
      rw [if_pos ⟨hc, (Kind.mem_rivals_iff _ _).2 (hk ▸ hslot)⟩] at hb
      simpa [hsite] using List.of_mem_filter hb
  sound b hb := by
    rcases mem_toList_write hb with rfl | hb
    · exact ha
    · exact h.sound b hb

theorem Canonical.writeAll (h : ix.Canonical dedupe) {as : List Annotation}
    (has : ∀ a ∈ as, a.Sound dedupe) : (ix.writeAll as).Canonical dedupe := by
  induction as generalizing ix with
  | nil => exact h
  | cons a as ih =>
    exact ih (h.write (has a List.mem_cons_self)) fun b hb => has b (List.mem_cons_of_mem _ hb)

end Index

end MappingMetadata
