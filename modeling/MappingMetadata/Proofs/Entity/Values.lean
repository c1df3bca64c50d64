import MappingMetadata.Proofs.Entity.Plain
import MappingMetadata.Proofs.Override.Values

/-!
# The values that entities write

**Theorem (`Entity.every_writes`).** What an entity writes has a property throughout that entries
ensure, if the index has it. The classes that the entity names are looked up one by one: its id
class, the targets of its associations, and its listeners.
-/

namespace MappingMetadata

variable {P : String → Prop} {Q : Value → Prop}

/-! ## Pieces -/

/-- What the piece has to write has the property throughout, if it does not depend on the index. -/
def Piece.Every (Q : Value → Prop) : Piece → Prop
  | fixed as => ∀ bs, as = .ok bs → ∀ a ∈ bs, a.Every Q
  | overrides .. => True

theorem Piece.every_plain {as : List Annotation} (h : ∀ a ∈ as, a.Every Q) :
    (Piece.plain as).Every Q := by
  intro bs hbs
  cases hbs
  exact h

theorem Piece.every_plain_toList {a : Option Annotation} (h : ∀ b ∈ a, b.Every Q) :
    (Piece.plain a.toList).Every Q :=
  every_plain fun b hb => h b (Option.mem_toList.1 hb)

/-- What is collected has the property throughout, the merged overrides included. -/
theorem Piece.every_collect (h : Entry.Ensures P Q) {ctx : Context} {ix : Index}
    (hix : ix.Every Q) {ps : List Piece} (hps : ∀ p ∈ ps, p.Every Q) {as : List Annotation}
    (has : collect ctx ix ps = .ok as) : ∀ a ∈ as, a.Every Q := by
  intro a ha
  obtain ⟨p, hp, bs, hbs, ha⟩ := exists_of_mem_collect has ha
  cases p with
  | fixed cs => exact hps _ hp bs hbs a ha
  | overrides f declared site =>
    obtain ⟨m, hm, rfl⟩ := Outcome.map_eq_ok_iff.1 hbs
    rw [Option.mem_toList] at ha
    cases ha
    exact Override.every_of_merged h hix hm

/-! ## Entities -/

namespace Declaration

theorem Callbacks.every_writes (callbacks : Callbacks) (className : String) :
    ∀ a ∈ callbacks.writes className, a.Every Q :=
  List.forall_mem_map.2 fun _ _ => Annotation.every_marker _ _

/-- The class of a listener is looked up. -/
theorem Listener.within_resolve {ctx : Context} (hpath : ctx.classPath.Within P) {l : Listener}
    {owner c : String} (hl : l.resolve ctx owner = .ok c) : P c := by
  unfold Listener.resolve at hl
  split at hl
  · cases hl
  · exact hpath.resolve hl

variable (h : Entry.Ensures P Q)

include h

theorem BasicAttribute.every_writes (a : BasicAttribute) (site : Site) :
    ∀ b ∈ a.writes site, b.Every Q := by
  intro b hb
  simp only [BasicAttribute.writes, List.mem_append, Option.mem_toList,
    Option.map_eq_some_iff] at hb
  rcases hb with ((⟨c, -, rfl⟩ | hb) | ⟨t, -, rfl⟩) | ⟨e, -, rfl⟩
  · exact c.every_annotation h _
  · split at hb
    · exact List.mem_singleton.1 hb ▸ Annotation.every_marker _ _
    · cases hb
  · exact t.every_annotation h _
  · exact e.every_annotation h _

variable {ctx : Context} (hpath : ctx.classPath.Within P)

include hpath

theorem AssociationAttribute.every_pieces (a : AssociationAttribute) (site : Site) :
    ∀ p ∈ a.pieces ctx site, p.Every Q := by
  simp only [AssociationAttribute.pieces, List.forall_mem_cons]
  refine ⟨?_, ?_, ?_, ?_, ?_, trivial, trivial, List.forall_mem_nil _⟩
  · intro as has b hb
    obtain ⟨m, hm, rfl⟩ := Outcome.map_eq_ok_iff.1 has
    rw [Option.mem_toList] at hb
    exact AssociationAttribute.every_annotation h hpath (hb ▸ hm)
  · exact Piece.every_plain_toList fun b hb =>
      Annotation.every_ofItems h (fun c _ => c.every_annotation h) hb
  · exact Piece.every_plain_toList
      (Option.forall_mem_map.2 fun t _ => t.every_annotation h _ _)
  · exact Piece.every_plain_toList
      (Option.forall_mem_map.2 fun t _ => t.every_annotation h _ _)
  · exact Piece.every_plain_toList
      (Option.forall_mem_map.2 fun c _ => c.every_annotation h _)

namespace Entity

theorem every_idClassWrites {e : Entity} {className : String} {as : List Annotation}
    (has : e.idClassWrites ctx className = .ok as) : ∀ a ∈ as, a.Every Q := by
  obtain ⟨idClass, hclass, has⟩ := Outcome.bind_eq_ok_iff.1 has
  cases has
  intro a ha
  obtain ⟨c, hc, rfl⟩ := Option.map_eq_some_iff.1 (Option.mem_toList.1 ha)
  refine Annotation.every_ofEntries h (List.forall_mem_singleton.2 ?_)
  rintro _ ⟨⟩
  exact hpath.resolve? hclass c hc

theorem every_listenerWrites {e : Entity} {className : String} {as : List Annotation}
    (has : e.listenerWrites ctx className = .ok as) : ∀ a ∈ as, a.Every Q := by
  obtain ⟨classes, hclasses, has⟩ := Outcome.bind_eq_ok_iff.1 has
  split at has
  · cases has
    exact nofun
  · cases has
    refine List.forall_mem_cons.2 ⟨?_, fun a ha => ?_⟩
    · refine Annotation.every_ofEntries h (List.forall_mem_singleton.2 fun c hc => ?_)
      obtain ⟨l, -, hl⟩ := Outcome.exists_of_mem_mapM hclasses hc
      exact Listener.within_resolve hpath hl
    · obtain ⟨p, -, ha⟩ := List.mem_flatMap.1 ha
      exact p.1.callbacks.every_writes p.2 a ha

/-- **An entity's own pieces have a property throughout that entries ensure.** -/
theorem every_ownPieces (e : Entity) (className : String) (access : Access) :
    ∀ p ∈ e.ownPieces ctx className access, p.Every Q := by
  simp only [ownPieces, List.forall_mem_append, List.forall_mem_cons, List.forall_mem_flatMap]
  refine ⟨⟨⟨?_, ?_, ?_, trivial, trivial, ?_, ?_, List.forall_mem_nil _⟩, ?_⟩, ?_, ?_, ?_,
    List.forall_mem_nil _⟩
  · refine Piece.every_plain fun b hb => ?_
    split at hb
    · exact List.mem_singleton.1 hb ▸ Annotation.every_marker _ _
    · cases hb
  · refine Piece.every_plain fun b hb => ?_
    split at hb
    · exact List.mem_singleton.1 hb ▸ Annotation.every_marker _ _
    · cases hb
  · exact fun as has => every_idClassWrites h hpath has
  · exact Piece.every_plain_toList fun b hb =>
      Annotation.every_ofItems h (fun c _ => c.every_annotation h) hb
  · exact Piece.every_plain (List.forall_mem_flatMap.2 fun a _ => a.every_writes h _)
  · exact fun a _ => a.every_pieces h hpath _
  · exact Piece.every_plain (List.forall_mem_map.2 fun _ _ => Annotation.every_marker _ _)
  · exact fun as has => every_listenerWrites h hpath has
  · exact Piece.every_plain (e.callbacks.every_writes className)

/-- **What an entity writes** has a property throughout that entries ensure and the index has. -/
theorem every_writes {e : Entity} {className : String} {ix : Index} (hix : ix.Every Q)
    {as : List Annotation} (has : e.writes ctx className ix = .ok as) : ∀ a ∈ as, a.Every Q := by
  refine Piece.every_collect h hix (List.forall_mem_cons.2 ⟨?_, ?_⟩) has
  · exact Piece.every_plain_toList
      (Option.forall_mem_map.2 fun access _ => access.every_annotation h className)
  · exact e.every_ownPieces h hpath className _

omit hpath in
theorem every_enrolled (e : Entity) (d : Defaults) {ix : Index} (hix : ix.Every Q) :
    (e.enrolled d ix).Every Q := by
  have hentered : ∀ c : String,
      (if e.metadataComplete then (ix.enter c).markComplete c else ix.enter c).Every Q := by
    intro c
    split
    · exact (hix.enter c).markComplete c
    · exact hix.enter c
  unfold enrolled
  cases e.access with
  | none => exact hentered _
  | some access => exact (hentered _).write (access.every_annotation h _)

end Entity

end Declaration

end MappingMetadata
