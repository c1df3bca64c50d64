import MappingMetadata.Globals.Build
import MappingMetadata.Proofs.Entity.Viewing
import MappingMetadata.Proofs.Override.Undefaulting

/-!
# Declarations under defaults of the same package and access

Schema, catalog and cascade defaults have no part in the names of classes, and what they state in
an annotation is left out when it is undefaulted. So under defaults that agree in package and access
an entity stands for annotations that look the same undefaulted (`Entity.alike_of_agrees`), and
global declarations, to which those defaults do not apply, are built alike
(`GlobalDeclarations.build_congr`).
-/

namespace MappingMetadata

/-- The defaults agree in what names classes and places annotations. -/
structure Defaults.Agrees (d d' : Defaults) : Prop where
  package : d.package = d'.package
  access : d.access = d'.access

section

variable {d d' : Defaults}

theorem Defaults.qualify_congr (h : d.package = d'.package) (className : String) :
    d.qualify className = d'.qualify className := by
  rw [qualify, h, qualify]

theorem ClassPath.resolve_congr (path : ClassPath) (h : d.package = d'.package)
    (className role : String) : path.resolve d className role = path.resolve d' className role := by
  rw [resolve, Defaults.qualify_congr h, resolve]

theorem ClassPath.resolve?_congr (path : ClassPath) (h : d.package = d'.package)
    (className : Option String) (role : String) :
    path.resolve? d className role = path.resolve? d' className role := by
  unfold resolve?
  cases className.filter fun c => !c.isEmpty with
  | none => rfl
  | some c => exact congrArg (Except.map some) (path.resolve_congr h c role)

end

namespace Declaration

open Annotation

variable (d d' : Defaults)

/-! ## Tables -/

theorem JoinTable.unlocated_annotation (t : JoinTable) (site : Option Site) :
    (t.annotation d site).unlocated = (t.annotation d' site).unlocated :=
  revised_ofEntries_congr (.cons ⟨rfl, fun _ _ => rfl⟩ (.cons ⟨rfl, nofun⟩ (.cons ⟨rfl, nofun⟩
    (.cons ⟨rfl, fun _ _ => rfl⟩ (.cons ⟨rfl, fun _ _ => rfl⟩
      (.cons ⟨rfl, fun _ _ => rfl⟩ .nil))))))

theorem CollectionTable.unlocated_annotation (t : CollectionTable) (site : Option Site) :
    (t.annotation d site).unlocated = (t.annotation d' site).unlocated :=
  revised_ofEntries_congr (.cons ⟨rfl, fun _ _ => rfl⟩ (.cons ⟨rfl, nofun⟩ (.cons ⟨rfl, nofun⟩
    (.cons ⟨rfl, fun _ _ => rfl⟩ (.cons ⟨rfl, fun _ _ => rfl⟩ .nil)))))

/-! ## Overrides -/

theorem AssociationOverride.undefaulted_annotation (o : AssociationOverride)
    (site : Option Site) :
    (o.annotation d site).undefaulted = (o.annotation d' site).undefaulted := by
  refine revised_ofEntries_congr (.cons ⟨rfl, fun _ _ => rfl⟩ (.cons ⟨rfl, fun _ _ => rfl⟩
    (.cons ⟨rfl, fun g hg => ?_⟩ .nil)))
  obtain rfl : Value.mapNested unlocated = g := Option.some.inj hg
  cases o.joinTable with
  | none => rfl
  | some t => exact congrArg (fun a => some (Value.nested a)) (t.unlocated_annotation d d' none)

theorem declaredAlike_attributes (os : List AttributeOverride) : List.Forall₂
    (Override.DeclaredAlike (f := .attributes) undefaulted d d') os os :=
  List.forall₂_same.2 fun _ _ => ⟨rfl, fun _ => rfl⟩

theorem declaredAlike_associations (os : List AssociationOverride) : List.Forall₂
    (Override.DeclaredAlike (f := .associations) undefaulted d d') os os :=
  List.forall₂_same.2 fun o _ => ⟨rfl, o.undefaulted_annotation d d'⟩

/-! ## Associations and entities -/

variable {d d'}

theorem AssociationAttribute.undefaulted_annotation (a : AssociationAttribute) (path : ClassPath)
    (h : d.package = d'.package) (site : Site) :
    Outcome.Alike (fun b b' => b.map undefaulted = b'.map undefaulted)
      (a.annotation path d site) (a.annotation path d' site) := by
  unfold AssociationAttribute.annotation
  cases a.associationType with
  | none => exact Outcome.alike_same (Option.map undefaulted) _
  | some type =>
    dsimp only
    rw [path.resolve?_congr h]
    refine (Outcome.alike_same id (path.resolve? d' a.targetEntity _)).bind ?_
    rintro target _ ⟨⟩
    refine .ok (congrArg some ?_)
    have hrule : ∀ type : Association,
        undefaultedRule type.kind = Rule.dropping ["cascade"] := by
      intro type
      cases type <;> rfl
    unfold undefaulted
    rw [show (ofEntries type.kind (some site) (a.entries d target)).kind = type.kind from rfl,
      show (ofEntries type.kind (some site) (a.entries d' target)).kind = type.kind from rfl, hrule]
    exact revised_ofEntries_congr (.cons ⟨rfl, fun _ _ => rfl⟩ (.cons ⟨rfl, nofun⟩ .nil))

/-- **An entity stands for the same under defaults that agree**, once undefaulted. -/
theorem Entity.alike_of_agrees {ctx ctx' : Context} (hpath : ctx.classPath = ctx'.classPath)
    (h : ctx.defaults.Agrees ctx'.defaults) (e : Entity) : e.Alike undefaulted ctx ctx' e := by
  have hassociation : ∀ a ∈ e.associations, a.Alike undefaulted ctx ctx' a := fun a _ =>
    { name := rfl
      annotation := fun site => by
        rw [hpath]
        exact a.undefaulted_annotation _ h.package site
      joinColumns := fun _ => rfl
      joinTable := fun site => by
        cases a.joinTable with
        | none => rfl
        | some t => exact congrArg some (t.unlocated_annotation _ _ site)
      collectionTable := fun site => by
        cases a.collectionTable with
        | none => rfl
        | some t => exact congrArg some (t.unlocated_annotation _ _ site)
      orderColumn := fun _ => rfl
      attributeOverrides := declaredAlike_attributes _ _ _
      associationOverrides := declaredAlike_associations _ _ _ }
  exact
    { isBlank := rfl
      className := Defaults.qualify_congr h.package _
      metadataComplete := rfl
      access := rfl
      excludeDefaultListeners := rfl
      excludeSuperclassListeners := rfl
      idClass := by
        rw [Context.resolve?, Context.resolve?, hpath, ctx'.classPath.resolve?_congr h.package]
      attributeOverrides := declaredAlike_attributes _ _ _
      associationOverrides := declaredAlike_associations _ _ _
      primaryKeyJoinColumns := fun _ => rfl
      basicAttributes := List.forall₂_same.2 fun _ _ => ⟨rfl, fun _ => rfl⟩
      associations := List.forall₂_same.2 hassociation
      transientAttributes := rfl
      entityListeners := List.forall₂_same.2 fun l _ => ⟨fun owner => by
        rw [Listener.resolve, Listener.resolve, hpath, ctx'.classPath.resolve_congr h.package],
        fun _ => rfl⟩
      callbacks := fun _ => rfl }

/-! ## Global declarations -/

theorem GlobalDeclarations.build_congr (g : GlobalDeclarations) (path : ClassPath)
    (h : d.package = d'.package) : g.build path d = g.build path d' := by
  have hquery : ∀ q : NamedNativeQuery, q.annotation path d = q.annotation path d' := fun q => by
    rw [NamedNativeQuery.annotation, path.resolve?_congr h, NamedNativeQuery.annotation]
  have hresult : ∀ r : EntityResult, r.annotation path d = r.annotation path d' := fun r => by
    rw [EntityResult.annotation, path.resolve?_congr h, EntityResult.annotation]
  have hmapping : ∀ m : ResultSetMapping, m.annotation path d = m.annotation path d' := fun m => by
    unfold ResultSetMapping.annotation
    simp only [hresult]
  unfold build annotations
  simp only [hquery, hmapping]

end Declaration

end MappingMetadata
