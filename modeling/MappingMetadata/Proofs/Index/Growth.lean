import MappingMetadata.Entity.Writes

/-!
# Growth of the index

An index *extends* another one when it lists the classes of that one first and in the same order,
and for each class the kinds that were seen there; a class that was complete stays complete.

Every operation of a step extends the index. Removing annotations from a site is no exception, as
it leaves the class and the kind in their places; only removing a whole kind takes a kind out.
-/

namespace MappingMetadata

/-! ## Keys -/

namespace Dict

variable {κ ν : Type} [DecidableEq κ]

theorem keys_prefix_put (d : Dict κ ν) (k : κ) (v : ν) : d.keys <+: (d.put k v).keys := by
  rw [keys_put]
  split
  · exact List.prefix_refl _
  · exact List.prefix_append _ _

end Dict

/-! ## One class -/

/-- What is known of a class has grown: no flag is lost, and no kind moves. -/
structure ClassEntry.Extends (e e' : ClassEntry) : Prop where
  complete : e.metadataComplete → e'.metadataComplete
  kinds : e.annotations.keys <+: e'.annotations.keys

namespace ClassEntry

theorem extends_refl (e : ClassEntry) : e.Extends e := ⟨id, List.prefix_refl _⟩

theorem extends_push (e : ClassEntry) (a : Annotation) : e.Extends (e.push a) :=
  ⟨id, Dict.keys_prefix_put _ _ _⟩

theorem extends_removeAt (e : ClassEntry) (site : Site) (k : Kind) :
    e.Extends (e.removeAt site k) where
  complete := id
  kinds := by
    have hkeys : (e.removeAt site k).annotations.keys = e.annotations.keys :=
      Dict.keys_modify _ _ _
    exact hkeys ▸ List.prefix_refl _

end ClassEntry

/-! ## The index -/

namespace Index

/-- The kinds seen on a class, in the order in which they were first seen. -/
def kinds (ix : Index) (c : String) : List Kind :=
  ((ix.entry? c).getD {}).annotations.keys

/-- The index has grown: no class and no kind of a class moves, and no flag is lost. -/
structure Extends (ix jx : Index) : Prop where
  classes : ix.classes.keys <+: jx.classes.keys
  kinds : ∀ c, ix.kinds c <+: jx.kinds c
  complete : ∀ c, ix.isComplete c → jx.isComplete c

theorem extends_refl (ix : Index) : ix.Extends ix :=
  ⟨List.prefix_refl _, fun _ => List.prefix_refl _, fun _ => id⟩

theorem Extends.trans {ix jx kx : Index} (h : ix.Extends jx) (h' : jx.Extends kx) :
    ix.Extends kx where
  classes := h.classes.trans h'.classes
  kinds c := (h.kinds c).trans (h'.kinds c)
  complete c hc := h'.complete c (h.complete c hc)

theorem extends_foldl {α : Type} {f : Index → α → Index} (h : ∀ ix x, Extends ix (f ix x))
    (xs : List α) (ix : Index) : ix.Extends (xs.foldl f ix) := by
  induction xs generalizing ix with
  | nil => exact extends_refl ix
  | cons x xs ih => exact (h ix x).trans (ih (f ix x))

/-- Putting an entry that has grown extends the index; a class without an entry counts as one of
which nothing is known. -/
theorem extends_put (ix : Index) {c : String} {e : ClassEntry}
    (h : ((ix.entry? c).getD {}).Extends e) : ix.Extends ⟨ix.classes.put c e⟩ := by
  have hentry : ∀ c', entry? ⟨ix.classes.put c e⟩ c' = if c = c' then some e else ix.entry? c' :=
    Dict.get?_put ix.classes c e
  refine ⟨Dict.keys_prefix_put _ _ _, fun c' => ?_, fun c' hcomplete => ?_⟩
  · unfold kinds
    rw [hentry]
    split
    · next hc => exact hc ▸ h.kinds
    · exact List.prefix_refl _
  · unfold isComplete at hcomplete ⊢
    rw [hentry]
    split
    · next hc =>
      subst hc
      refine h.complete ?_
      cases he : ix.entry? c <;> rw [he] at hcomplete <;> exact hcomplete
    · exact hcomplete

theorem extends_enter (ix : Index) (c : String) : ix.Extends (ix.enter c) := by
  unfold enter
  cases he : ix.entry? c with
  | some e => exact extends_refl ix
  | none => exact ix.extends_put (by rw [he]; exact ClassEntry.extends_refl _)

theorem extends_markComplete (ix : Index) (c : String) : ix.Extends (ix.markComplete c) :=
  ix.extends_put ⟨fun _ => rfl, List.prefix_refl _⟩

theorem extends_push (ix : Index) (a : Annotation) : ix.Extends (ix.push a) := by
  unfold push
  cases a.site with
  | none => exact extends_refl ix
  | some site => exact ix.extends_put (ClassEntry.extends_push _ a)

theorem extends_removeAt (ix : Index) (site : Site) (k : Kind) :
    ix.Extends (ix.removeAt site k) := by
  unfold removeAt Dict.modify
  cases he : ix.classes.get? site.className with
  | none => exact extends_refl ix
  | some e =>
    have hold : ix.entry? site.className = some e := he
    exact ix.extends_put (by rw [hold]; exact e.extends_removeAt site k)

theorem extends_replace (ix : Index) (a : Annotation) (superseded : List Kind) :
    ix.Extends (ix.replace a superseded) := by
  unfold replace
  cases a.site with
  | none => exact extends_refl ix
  | some site =>
    exact (extends_foldl (fun ix k => extends_removeAt ix site k) superseded ix).trans
      (extends_push _ a)

theorem extends_writeAll (ix : Index) (as : List Annotation) : ix.Extends (ix.writeAll as) :=
  extends_foldl (fun ix a => ix.extends_replace a a.kind.rivals) as ix

end Index

/-- Enrolling an entity enters a class, sets a flag and states an access type. -/
theorem Declaration.Entity.extends_enrolled (e : Entity) (d : Defaults) (ix : Index) :
    ix.Extends (e.enrolled d ix) := by
  have hmarked : ∀ jx : Index, jx.Extends
      (if e.metadataComplete then jx.markComplete (d.qualify e.className) else jx) := by
    intro jx
    split
    · exact jx.extends_markComplete _
    · exact jx.extends_refl
  have hentered := (ix.extends_enter (d.qualify e.className)).trans (hmarked _)
  unfold enrolled
  cases e.access with
  | none => exact hentered
  | some access => exact hentered.trans (Index.extends_replace _ _ _)

end MappingMetadata
