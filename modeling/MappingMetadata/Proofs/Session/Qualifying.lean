import MappingMetadata.Proofs.Declaration.Qualifying
import MappingMetadata.Proofs.Session.Viewing

/-!
# Full class names in a document

**Theorem (`document_qualified`).** Under a default package it makes no difference to what a
document does, or why it fails, whether its class names are written out. The package may come from
the document or from the session.

A class name is looked up, entered in the index and reported in full only, so it is enough to follow
the six places in which a document may name a class, down to the comparison of blank and empty
names, which are never written out.
-/

namespace MappingMetadata

open Declaration

/-- The members of an entity stand for the same with full class names. -/
theorem Declaration.Entity.alike_qualified {ctx : Context} {package : String}
    (hpackage : ctx.defaults.package = some package) (hne : package ≠ "") (e : Entity) :
    (e.qualified package).Alike id ctx ctx e := by
  have hdeclared : ∀ (f : Override.Family) (os : List f.Declared),
      List.Forall₂ (Override.DeclaredAlike id ctx.defaults ctx.defaults) os os := fun f os =>
    List.forall₂_same.2 fun o _ => Override.Item.alike_refl ctx.defaults (.declared o)
  have hassociation : ∀ a ∈ e.associations, (a.qualified package).Alike id ctx ctx a := fun a _ =>
    { name := rfl
      annotation := fun site => by
        rw [a.annotation_qualified hpackage hne]
        exact Outcome.alike_same (Option.map id) _
      joinColumns := fun _ => rfl
      joinTable := fun _ => rfl
      collectionTable := fun _ => rfl
      orderColumn := fun _ => rfl
      attributeOverrides := hdeclared .attributes _
      associationOverrides := hdeclared .associations _ }
  have hlistener : ∀ l ∈ e.entityListeners,
      (∀ owner, (l.qualified package).resolve ctx owner = l.resolve ctx owner) ∧
        ∀ c, (l.qualified package).callbacks.writes c = l.callbacks.writes c := by
    refine fun l _ => ⟨fun owner => ?_, fun _ => rfl⟩
    rw [Listener.resolve, Listener.qualified, isBlank_qualifiedName,
      ctx.classPath.resolve_qualifiedName hpackage hne, Listener.resolve]
  exact
    { isBlank := isBlank_qualifiedName _ _
      className := qualify_qualifiedName hpackage hne _
      metadataComplete := rfl
      access := rfl
      excludeDefaultListeners := rfl
      excludeSuperclassListeners := rfl
      idClass := ctx.classPath.resolve?_qualifiedName hpackage hne _ _
      attributeOverrides := hdeclared .attributes _
      associationOverrides := hdeclared .associations _
      primaryKeyJoinColumns := fun _ => rfl
      basicAttributes := List.forall₂_same.2 fun _ _ => ⟨rfl, fun _ => rfl⟩
      associations := List.forall₂_map_left_iff.2 (List.forall₂_same.2 hassociation)
      transientAttributes := rfl
      entityListeners := List.forall₂_map_left_iff.2 (List.forall₂_same.2 hlistener)
      callbacks := fun _ => rfl }

namespace Session

/-- **Full class names make no difference.** -/
theorem document_qualified (s : Session) (doc : Document) {package : String}
    (hpackage : (s.defaultsFor doc).package = some package) (hne : package ≠ "") :
    s.step (.document (doc.qualified package)) = s.step (.document doc) :=
  step_document_congr rfl (doc.globals.build_qualified hpackage hne s.classPath)
    (List.forall₂_map_left_iff.2 (List.forall₂_same.2 fun e _ =>
      Entity.alike_qualified hpackage hne e))

/-- A document that overrides the package of the session and names classes in all six places, with
a short name or a full one, in a session that knows all of them. -/
theorem qualified_six_references :
    let names := ["shop.Order", "shop.OrderId", "shop.Customer", "audit.Log", "shop.Total"]
    let s : Session := start { defaults := { package := some "app" }, strictClasses := true,
                               knownClasses := names }
    let doc : Document := {
      defaults := { package := some "shop" }
      entities := [{
        className := "Order", idClass := some "OrderId",
        associations := [{ name := "customer", associationType := some .manyToOne,
                           targetEntity := some "Customer" }],
        entityListeners := [{ className := "audit.Log",
                              callbacks := { prePersist := some "log" } }] }]
      globals := {
        namedNativeQueries := [{ name := some "totals", resultClass := some "Total" }]
        sqlResultSetMappings := [{ name := some "orders",
                                   entities := [{ entityClass := some "Order" }] }] } }
    (s.defaultsFor doc).package = some "shop" ∧ doc.qualified "shop" ≠ doc ∧
      (s.step (.document doc)).1 = .ok (.report ⟨1, 4, 2⟩) ∧
      s.step (.document (doc.qualified "shop")) = s.step (.document doc) := by
  intro names s doc
  exact ⟨by decide +kernel, by decide +kernel, by decide +kernel,
    document_qualified s doc (by decide +kernel) (by decide)⟩

end Session

end MappingMetadata
