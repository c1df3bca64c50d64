import MappingMetadata.Proofs.Declaration.Pruning
import MappingMetadata.Proofs.Session.Viewing

/-!
# Empty texts in a document

**Theorem (`document_pruned`).** A document does exactly what it does without its empty texts,
unless an association with an empty target entity has neither a type nor a cascade. A document with
such an association fails and leaves the session as it was, although without the empty text the
association would be a lawful one that states nothing (`stray_target_counts`).
-/

namespace MappingMetadata

open Declaration

/-- The pruned members of an entity stand for what its members stand for. -/
theorem Declaration.Entity.alike_pruned (ctx : Context) {e : Entity}
    (h : ∀ a ∈ e.associations, ¬ a.Stray) : e.pruned.Alike id ctx ctx e := by
  have hattributes : ∀ os : List AttributeOverride, List.Forall₂
      (Override.DeclaredAlike (f := .attributes) id ctx.defaults ctx.defaults)
      (os.map AttributeOverride.pruned) os := fun os =>
    List.forall₂_map_left_iff.2 (List.forall₂_same.2 fun o _ => ⟨rfl, o.annotation_pruned⟩)
  have hassociations : ∀ os : List AssociationOverride, List.Forall₂
      (Override.DeclaredAlike (f := .associations) id ctx.defaults ctx.defaults)
      (os.map AssociationOverride.pruned) os := fun os =>
    List.forall₂_map_left_iff.2 (List.forall₂_same.2 fun o _ =>
      ⟨rfl, o.annotation_pruned ctx.defaults⟩)
  have hassociation : ∀ a ∈ e.associations, a.pruned.Alike id ctx ctx a := fun a ha =>
    { name := rfl
      annotation := fun site => by
        rw [AssociationAttribute.annotation_pruned (h a ha)]
        exact Outcome.alike_same (Option.map id) _
      joinColumns := fun site => JoinColumn.listAnnotation_pruned _ site
      joinTable := fun site => by
        simp [AssociationAttribute.pruned, Function.comp_def, JoinTable.annotation_pruned]
      collectionTable := fun site => by
        simp [AssociationAttribute.pruned, Function.comp_def, CollectionTable.annotation_pruned]
      orderColumn := fun site => by
        simp [AssociationAttribute.pruned, Function.comp_def, OrderColumn.annotation_pruned]
      attributeOverrides := hattributes _
      associationOverrides := hassociations _ }
  exact
    { isBlank := rfl
      className := rfl
      metadataComplete := rfl
      access := rfl
      excludeDefaultListeners := rfl
      excludeSuperclassListeners := rfl
      idClass := ClassPath.resolve?_nonempty? _ _ _ _
      attributeOverrides := hattributes _
      associationOverrides := hassociations _
      primaryKeyJoinColumns := fun site => PrimaryKeyJoinColumn.listAnnotation_pruned _ site
      basicAttributes := List.forall₂_map_left_iff.2 (List.forall₂_same.2 fun a _ =>
        ⟨rfl, a.writes_pruned⟩)
      associations := List.forall₂_map_left_iff.2 (List.forall₂_same.2 hassociation)
      transientAttributes := rfl
      entityListeners := List.forall₂_map_left_iff.2 (List.forall₂_same.2 fun l _ =>
        ⟨fun _ => rfl, l.callbacks.writes_pruned⟩)
      callbacks := e.callbacks.writes_pruned }

namespace Session

/-- Entities with a stray target entity are not processed. -/
theorem not_stray_of_stage {s : Session} {d : Defaults} {es : List Entity} {n : Nat} {ix : Index}
    (h : s.stage d es = .ok (n, ix)) : ∀ e ∈ es, ∀ a ∈ e.associations, ¬ a.Stray := by
  intro e he a ha hstray
  obtain ⟨-, as, has, -, -⟩ := stage_eq_ok_iff.1 h
  obtain ⟨jx, bs, hbs⟩ := (exists_of_mem_writesAll has).1 e he
  obtain ⟨p, -, hp⟩ := Entity.exists_placed hbs
  obtain ⟨cs, -, hcs, -⟩ := exists_of_mem_forall₂ hp.associations.flip ha
  obtain ⟨own, -, hown, -, -⟩ := Piece.collect_cons_eq_ok_iff.1 hcs
  obtain ⟨b, hb, -⟩ := Outcome.map_eq_ok_iff.1 hown
  rw [AssociationAttribute.annotation_of_stray hstray] at hb
  cases hb

/-- **A document without its empty texts**: it does the same, but for stray target entities, with
which a document fails. -/
theorem document_pruned (s : Session) (doc : Document) :
    ((∀ e ∈ doc.entities, ∀ a ∈ e.associations, ¬ a.Stray) →
      s.step (.document doc.pruned) = s.step (.document doc)) ∧
    ((∃ e ∈ doc.entities, ∃ a ∈ e.associations, a.Stray) →
      ∃ err, s.step (.document doc) = (.error err, s)) := by
  constructor
  · intro h
    refine step_document_congr rfl (doc.globals.build_pruned _ _) ?_
    exact List.forall₂_map_left_iff.2 (List.forall₂_same.2 fun e he =>
      Entity.alike_pruned _ (h e he))
  · rintro ⟨e, he, a, ha, hstray⟩
    rw [step_document]
    cases doc.globals.build s.classPath (s.defaultsFor doc) with
    | error err => exact ⟨err, rfl⟩
    | ok built =>
      dsimp only
      cases hstage : s.stage (s.defaultsFor doc) doc.entities with
      | error err => exact ⟨err, rfl⟩
      | ok p => exact absurd hstray (not_stray_of_stage hstage e he a ha)

/-- An association with an empty target entity and no type makes a document fail that is lawful
without the empty text. -/
theorem stray_target_counts :
    let doc : Document := { entities := [{
      className := "Order", associations := [{ name := "customer", targetEntity := some "" }] }] }
    ((start {}).step (.document doc)).1 = .error (.untypedAssociation "customer") ∧
      ((start {}).step (.document doc.pruned)).1 = .ok (.report ⟨1, 0, 0⟩) := by
  decide +kernel

/-- Both halves of the theorem have documents: one with an empty id class, an empty column name and
an empty target entity of a typed association, and one with a stray target entity. -/
theorem pruned_with_and_without_stray :
    let typed : Document := { entities := [{
      className := "Order", idClass := some "",
      basicAttributes := [{ name := "id", column := some { name := some "" } }],
      associations := [{ name := "customer", associationType := some .manyToOne,
                         targetEntity := some "" }] }] }
    let stray : Document := { entities := [{
      className := "Order", associations := [{ name := "customer", targetEntity := some "" }] }] }
    ((∀ e ∈ typed.entities, ∀ a ∈ e.associations, ¬ a.Stray) ∧ typed.pruned ≠ typed ∧
        (start {}).step (.document typed.pruned) = (start {}).step (.document typed)) ∧
      (∃ e ∈ stray.entities, ∃ a ∈ e.associations, a.Stray) ∧
        ∃ err, (start {}).step (.document stray) = (.error err, start {}) := by
  intro typed stray
  have htyped : ∀ e ∈ typed.entities, ∀ a ∈ e.associations, ¬ a.Stray := by decide +kernel
  have hstray : ∃ e ∈ stray.entities, ∃ a ∈ e.associations, a.Stray := by decide +kernel
  exact ⟨⟨htyped, by decide +kernel, (document_pruned (start {}) typed).1 htyped⟩, hstray,
    (document_pruned (start {}) stray).2 hstray⟩

end Session

end MappingMetadata
