import Mathlib.Data.List.Induction
import MappingMetadata.Proofs.Index.Slots

/-!
# Superseded annotations

A write *supersedes* whatever stands on its site under one of the kinds that it takes the place
of. An index is *filed* when each annotation stands under the class of its own site; then what a
list of writes removes can be told from sites and kinds alone. Without it a write would spare the
annotations of its site that stand under another class, where removing does not look.

**Theorem (`Filed.ofKind_writeAll`).** In a filed index, a list of writes removes just the
annotations that one of the writes supersedes, and adds the writes that no later one supersedes.

Indexes of annotations are filed, and writing keeps them so (`filed_ofList`, `Filed.writeAll`).
-/

namespace MappingMetadata

/-- Writing the annotation takes the place of what has this kind and stands on this site. -/
def Annotation.Supersedes (w : Annotation) (k : Kind) (site : Option Site) : Prop :=
  w.site = site ∧ k ∈ w.kind.rivals

instance (w : Annotation) (k : Kind) (site : Option Site) : Decidable (w.Supersedes k site) :=
  inferInstanceAs (Decidable (_ ∧ _))

namespace Annotation

theorem supersedes_iff (w : Annotation) (k : Kind) (site : Option Site) :
    w.Supersedes k site ↔ w.site = site ∧ w.kind.slot = k.slot := by
  rw [Supersedes, Kind.mem_rivals_iff, eq_comm (a := k.slot)]

/-- Under the class of a site, what a write covers is what it supersedes. -/
theorem covers_iff_supersedes {w : Annotation} {c : String} {k : Kind} {site : Option Site}
    (h : site.map Site.className = some c) : w.covers c k site ↔ w.Supersedes k site := by
  obtain ⟨s, rfl, rfl⟩ := Option.map_eq_some_iff.1 h
  rw [supersedes_iff, covers]
  cases hw : w.site with
  | none => simp
  | some t =>
    by_cases hts : t = s
    · subst hts
      simp [eq_comm]
    · simp [hts, Ne.symm hts]

end Annotation

namespace Index

variable {ix : Index}

/-! ## Filed indexes -/

/-- Every annotation stands under the class of its site. -/
def Filed (ix : Index) : Prop := ∀ c k, ∀ a ∈ ix.ofKind c k, a.site.map Site.className = some c

theorem filed_empty : empty.Filed := fun c k a ha => by cases ha

theorem Filed.push (h : ix.Filed) (a : Annotation) : (ix.push a).Filed := by
  cases hs : a.site with
  | none => rwa [show ix.push a = ix by rw [Index.push, hs]]
  | some site =>
    intro c k b hb
    rw [ofKind_push ix hs] at hb
    split at hb
    · rename_i hc
      rcases List.mem_append.1 hb with hb | hb
      · exact h c k b hb
      · rw [List.mem_singleton.1 hb, hs, Option.map_some, hc.1]
    · exact h c k b hb

theorem filed_ofList (as : List Annotation) : (ofList as).Filed := by
  unfold ofList
  induction as using List.reverseRecOn with
  | nil => exact filed_empty
  | append_singleton as a ih =>
    rw [List.foldl_append]
    exact ih.push a

/-- Writing adds annotations under the classes of their sites, and else only removes some. -/
theorem Filed.writeAll (h : ix.Filed) (ws : List Annotation) : (ix.writeAll ws).Filed := by
  intro c k a ha
  rw [Index.ofKind_writeAll, List.mem_append] at ha
  rcases ha with ha | ha
  · exact h c k a (List.mem_of_mem_filter ha)
  · have hbelongs : a.belongs c k := (List.mem_filter.1 ha).2
    unfold Annotation.belongs at hbelongs
    rw [Bool.and_eq_true, decide_eq_true_eq] at hbelongs
    exact hbelongs.1

/-! ## What writing supersedes -/

/-- The writes that no later one supersedes. -/
def unsuperseded : List Annotation → List Annotation
  | [] => []
  | w :: ws =>
    if ∃ v ∈ ws, v.Supersedes w.kind w.site then unsuperseded ws else w :: unsuperseded ws

theorem lasting_eq_unsuperseded (ws : List Annotation) : lasting ws = unsuperseded ws := by
  induction ws with
  | nil => rfl
  | cons w ws ih =>
    have hlater : w.coveredBy ws ↔ ∃ v ∈ ws, v.Supersedes w.kind w.site := by
      simp only [List.any_eq_true, Bool.and_eq_true, decide_eq_true_eq, Annotation.coveredBy,
        Annotation.supersedes_iff]
    rw [lasting, unsuperseded, ih]
    simp only [hlater]

/-- **What writing leaves in a filed index.** -/
theorem Filed.ofKind_writeAll (h : ix.Filed) (ws : List Annotation) (c : String) (k : Kind) :
    (ix.writeAll ws).ofKind c k =
      ((ix.ofKind c k).filter fun a => ¬ ∃ w ∈ ws, w.Supersedes k a.site) ++
        (unsuperseded ws).filter fun w => w.site.map Site.className = some c ∧ w.kind = k := by
  rw [Index.ofKind_writeAll, lasting_eq_unsuperseded]
  congr 1
  · refine List.filter_congr fun a ha => ?_
    have hcovered : (ws.any fun w => w.covers c k a.site) ↔ ∃ w ∈ ws, w.Supersedes k a.site := by
      simp only [List.any_eq_true, Annotation.covers_iff_supersedes (h c k a ha)]
    rw [decide_not]
    exact congrArg not (Bool.eq_iff_iff.2 (hcovered.trans decide_eq_true_iff.symm))
  · refine List.filter_congr fun w _ => ?_
    unfold Annotation.belongs
    rw [Bool.decide_and]

end Index

end MappingMetadata
