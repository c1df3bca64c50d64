import MappingMetadata.Proofs.Entity.Placement
import MappingMetadata.Proofs.Override.Viewing

/-!
# Entities that look alike

Two entities may differ in how they are written down and still stand for annotations that look
alike. `Entity.Alike` says member by member what that takes, each of the two read under a context of
its own; what it says of a member is what the annotations for that member show in a view.

**Theorem (`writes_alike`).** In indexes that look alike, entities that do write what looks alike,
or both fail for the same cause.

The proof follows the pieces of an entity. A piece is made in the same way on both sides, so it is
enough that the declared members are alike; overrides are the only pieces that depend on the index.
-/

namespace MappingMetadata

variable {F : Annotation → Annotation} {ctx ctx' : Context} {ix ix' : Index}

/-- In a view that is *faithful* to two contexts, indexes that look alike are merged with alike. -/
structure Context.Faithful (F : Annotation → Annotation) (ctx ctx' : Context) : Prop where
  view : Annotation.View F
  carries : Override.Carries F ctx.defaults ctx'.defaults
  dedupe : ctx.dedupe = ctx'.dedupe
  access : ctx.defaults.access = ctx'.defaults.access

theorem Context.faithful_id (ctx : Context) : ctx.Faithful id ctx where
  view := Annotation.view_id
  carries := Override.carries_id ctx.defaults
  dedupe := rfl
  access := rfl

theorem Context.Faithful.access? (hF : ctx.Faithful F ctx') (h : ix.view F = ix'.view F)
    (c : String) : ctx.access? ix c = ctx'.access? ix' c := by
  rw [Context.access?, Context.access?, hF.access, ← Index.access?_view hF.view ix, h,
    Index.access?_view hF.view]

/-! ## Pieces -/

namespace Piece

/-- Annotations that look alike, one by one. -/
def LooksAlike (F : Annotation → Annotation) (as bs : List Annotation) : Prop :=
  as.map F = bs.map F

section

variable {as bs as' bs' : List Annotation}

theorem LooksAlike.append (h : LooksAlike F as bs) (h' : LooksAlike F as' bs') :
    LooksAlike F (as ++ as') (bs ++ bs') := by
  unfold LooksAlike at h h' ⊢
  rw [List.map_append, List.map_append, h, h']

theorem LooksAlike.length_eq (h : LooksAlike F as bs) : as.length = bs.length := by
  rw [← List.length_map (f := F), show as.map F = bs.map F from h, List.length_map]

/-- Writing what looks alike to indexes that look alike. -/
theorem LooksAlike.view_writeAll (h : LooksAlike F as bs) (hF : Annotation.View F)
    (hix : ix.view F = ix'.view F) : (ix.writeAll as).view F = (ix'.writeAll bs).view F := by
  rw [Index.view_writeAll hF, hix, show as.map F = bs.map F from h, Index.view_writeAll hF]

end

/-- Both pieces come to annotations that look alike, or fail for the same cause. -/
def Alike (F : Annotation → Annotation) (ctx ctx' : Context) (ix ix' : Index) (p q : Piece) :
    Prop :=
  Outcome.Alike (LooksAlike F) (p.annotations ctx ix) (q.annotations ctx' ix')

theorem alike_plain {as bs : List Annotation} (h : as.map F = bs.map F) :
    (plain as).Alike F ctx ctx' ix ix' (plain bs) := .ok h

theorem alike_plain_toList {a b : Option Annotation} (h : a.map F = b.map F) :
    (plain a.toList).Alike F ctx ctx' ix ix' (plain b.toList) := by
  refine alike_plain ?_
  rw [← Option.toList_map, h, Option.toList_map]

theorem collect_alike {ps qs : List Piece} (h : List.Forall₂ (Alike F ctx ctx' ix ix') ps qs) :
    Outcome.Alike (LooksAlike F) (collect ctx ix ps) (collect ctx' ix' qs) := by
  induction h with
  | nil => exact .ok rfl
  | cons hp _ ih =>
    exact hp.bind fun as bs hab => ih.bind fun cs ds hcd => .ok (hab.append hcd)

end Piece

namespace Declaration

/-! ## Members -/

/-- Associations of one name whose annotations look alike on every site. -/
structure AssociationAttribute.Alike (F : Annotation → Annotation) (ctx ctx' : Context)
    (a a' : AssociationAttribute) : Prop where
  name : a.name = a'.name
  annotation : ∀ site, Outcome.Alike (fun b b' => b.map F = b'.map F)
    (a.annotation ctx.classPath ctx.defaults site) (a'.annotation ctx'.classPath ctx'.defaults site)
  joinColumns : ∀ site,
    JoinColumn.listAnnotation a.joinColumns site = JoinColumn.listAnnotation a'.joinColumns site
  joinTable : ∀ site, (a.joinTable.map fun t => F (t.annotation ctx.defaults site)) =
    a'.joinTable.map fun t => F (t.annotation ctx'.defaults site)
  collectionTable : ∀ site, (a.collectionTable.map fun t => F (t.annotation ctx.defaults site)) =
    a'.collectionTable.map fun t => F (t.annotation ctx'.defaults site)
  orderColumn : ∀ site, (a.orderColumn.map fun c => c.annotation site) =
    a'.orderColumn.map fun c => c.annotation site
  attributeOverrides : List.Forall₂
    (Override.DeclaredAlike (f := .attributes) F ctx.defaults ctx'.defaults)
    a.attributeOverrides a'.attributeOverrides
  associationOverrides : List.Forall₂
    (Override.DeclaredAlike (f := .associations) F ctx.defaults ctx'.defaults)
    a.associationOverrides a'.associationOverrides

theorem AssociationAttribute.pieces_alike (hF : ctx.Faithful F ctx')
    (hix : ix.view F = ix'.view F) {a a' : AssociationAttribute} (h : a.Alike F ctx ctx' a')
    (site : Site) :
    List.Forall₂ (Piece.Alike F ctx ctx' ix ix') (a.pieces ctx site) (a'.pieces ctx' site) := by
  have hown : Outcome.Alike (Piece.LooksAlike F)
      ((a.annotation ctx.classPath ctx.defaults site).map Option.toList)
      ((a'.annotation ctx'.classPath ctx'.defaults site).map Option.toList) := by
    refine (h.annotation site).map fun b b' hb => ?_
    unfold Piece.LooksAlike
    rw [← Option.toList_map, hb, Option.toList_map]
  refine .cons hown (.cons ?_ (.cons ?_ (.cons ?_ (.cons ?_ (.cons ?_ (.cons ?_ .nil))))))
  · exact Piece.alike_plain_toList (congrArg _ (h.joinColumns _))
  · exact Piece.alike_plain_toList (by rw [Option.map_map, Option.map_map]; exact h.joinTable _)
  · exact Piece.alike_plain_toList (by
      rw [Option.map_map, Option.map_map]
      exact h.collectionTable _)
  · exact Piece.alike_plain_toList (congrArg _ (h.orderColumn _))
  · exact Override.overrides_alike hF.view hF.dedupe h.attributeOverrides hF.carries hix site
  · exact Override.overrides_alike hF.view hF.dedupe h.associationOverrides hF.carries hix site

/-- Entities of one class whose members stand for annotations that look alike. -/
structure Entity.Alike (F : Annotation → Annotation) (ctx ctx' : Context) (e e' : Entity) :
    Prop where
  isBlank : Text.isBlank e.className = Text.isBlank e'.className
  className : ctx.defaults.qualify e.className = ctx'.defaults.qualify e'.className
  metadataComplete : e.metadataComplete = e'.metadataComplete
  access : e.access = e'.access
  excludeDefaultListeners : e.excludeDefaultListeners = e'.excludeDefaultListeners
  excludeSuperclassListeners : e.excludeSuperclassListeners = e'.excludeSuperclassListeners
  idClass : ctx.resolve? e.idClass "id class" = ctx'.resolve? e'.idClass "id class"
  attributeOverrides : List.Forall₂
    (Override.DeclaredAlike (f := .attributes) F ctx.defaults ctx'.defaults)
    e.attributeOverrides e'.attributeOverrides
  associationOverrides : List.Forall₂
    (Override.DeclaredAlike (f := .associations) F ctx.defaults ctx'.defaults)
    e.associationOverrides e'.associationOverrides
  primaryKeyJoinColumns : ∀ site,
    PrimaryKeyJoinColumn.listAnnotation e.primaryKeyJoinColumns site =
      PrimaryKeyJoinColumn.listAnnotation e'.primaryKeyJoinColumns site
  basicAttributes : List.Forall₂
    (fun a a' => a.name = a'.name ∧ ∀ site, a.writes site = a'.writes site)
    e.basicAttributes e'.basicAttributes
  associations : List.Forall₂ (AssociationAttribute.Alike F ctx ctx')
    e.associations e'.associations
  transientAttributes : e.transientAttributes = e'.transientAttributes
  entityListeners : List.Forall₂ (fun l l' =>
      (∀ owner, l.resolve ctx owner = l'.resolve ctx' owner) ∧
        ∀ c, l.callbacks.writes c = l'.callbacks.writes c) e.entityListeners e'.entityListeners
  callbacks : ∀ c, e.callbacks.writes c = e'.callbacks.writes c

namespace Entity

variable {e e' : Entity}

theorem listenerWrites_congr (h : e.Alike F ctx ctx' e') (className : String) :
    e.listenerWrites ctx className = e'.listenerWrites ctx' className := by
  have hlisteners := h.entityListeners
  unfold listenerWrites
  generalize e.entityListeners = ls at hlisteners ⊢
  generalize e'.entityListeners = ls' at hlisteners ⊢
  have hcallbacks : ∀ classes : List String,
      ((ls.zip classes).flatMap fun p => p.1.callbacks.writes p.2) =
        (ls'.zip classes).flatMap fun p => p.1.callbacks.writes p.2 := by
    induction hlisteners with
    | nil => exact fun _ => rfl
    | cons hl _ ih =>
      intro classes
      cases classes with
      | nil => rfl
      | cons c classes =>
        rw [List.zip_cons_cons, List.zip_cons_cons, List.flatMap_cons, List.flatMap_cons, hl.2, ih]
  have hclasses : ls.mapM (fun l => l.resolve ctx className) =
      ls'.mapM fun l => l.resolve ctx' className :=
    Outcome.mapM_congr (hlisteners.imp fun _ _ hl => hl.1 className)
  have hempty : ls.isEmpty = ls'.isEmpty := by
    cases hlisteners <;> rfl
  simp only [hclasses, hempty, hcallbacks]

theorem ownPieces_alike (hF : ctx.Faithful F ctx') (hix : ix.view F = ix'.view F)
    (h : e.Alike F ctx ctx' e') (className : String) (access : Access) :
    List.Forall₂ (Piece.Alike F ctx ctx' ix ix') (e.ownPieces ctx className access)
      (e'.ownPieces ctx' className access) := by
  have hrefl : ∀ r : Outcome (List Annotation), Outcome.Alike (Piece.LooksAlike F) r r :=
    Outcome.alike_same (List.map F)
  have hidClass : e.idClassWrites ctx className = e'.idClassWrites ctx' className := by
    rw [idClassWrites, idClassWrites, h.idClass]
  have hbasics : (e.basicAttributes.flatMap fun a => a.writes (access.site className a.name)) =
      e'.basicAttributes.flatMap fun a => a.writes (access.site className a.name) := by
    rw [List.flatMap_def, List.flatMap_def]
    refine congrArg List.flatten (map_congr_of_forall₂ (h.basicAttributes.imp fun a a' ha => ?_))
    rw [ha.1, ha.2]
  have hassociations : List.Forall₂ (Piece.Alike F ctx ctx' ix ix')
      (e.associations.flatMap fun a => a.pieces ctx (access.site className a.name))
      (e'.associations.flatMap fun a => a.pieces ctx' (access.site className a.name)) :=
    List.rel_flatMap h.associations fun a a' ha => by
      rw [ha.name]
      exact a.pieces_alike hF hix ha _
  refine List.rel_append (List.rel_append ?_ hassociations) ?_
  · refine .cons ?_ (.cons ?_ (.cons ?_ (.cons ?_ (.cons ?_ (.cons ?_ (.cons ?_ .nil))))))
    · exact Piece.alike_plain (by rw [h.excludeDefaultListeners])
    · exact Piece.alike_plain (by rw [h.excludeSuperclassListeners])
    · rw [hidClass]
      exact hrefl _
    · exact Override.overrides_alike hF.view hF.dedupe h.attributeOverrides hF.carries hix _
    · exact Override.overrides_alike hF.view hF.dedupe h.associationOverrides hF.carries hix _
    · exact Piece.alike_plain_toList (congrArg _ (h.primaryKeyJoinColumns _))
    · exact Piece.alike_plain (congrArg _ hbasics)
  · refine .cons ?_ (.cons ?_ (.cons ?_ .nil))
    · exact Piece.alike_plain (by rw [h.transientAttributes])
    · rw [listenerWrites_congr h]
      exact hrefl _
    · exact Piece.alike_plain (congrArg _ (h.callbacks className))

/-- **Entities that look alike write what looks alike.** -/
theorem writes_alike (hF : ctx.Faithful F ctx') (hix : ix.view F = ix'.view F)
    (h : e.Alike F ctx ctx' e') (className : String) :
    Outcome.Alike (Piece.LooksAlike F) (e.writes ctx className ix)
      (e'.writes ctx' className ix') := by
  have haccess : e.accessUnder (ctx.access? ix className) =
      e'.accessUnder (ctx'.access? ix' className) := by
    rw [accessUnder, accessUnder, h.access, hF.access? hix]
  rw [writes, writes, pieces_eq, pieces_eq, haccess]
  refine Piece.collect_alike (.cons ?_ (ownPieces_alike hF hix h className _))
  refine Piece.alike_plain ?_
  rw [inheritedAccess, inheritedAccess, h.access, hF.access? hix]

/-- Enrolling entities that look alike leaves indexes that look alike. -/
theorem view_enrolled (hF : Annotation.View F) (hix : ix.view F = ix'.view F)
    (h : e.Alike F ctx ctx' e') :
    (e.enrolled ctx.defaults ix).view F = (e'.enrolled ctx'.defaults ix').view F := by
  unfold enrolled
  rw [h.className, h.metadataComplete, h.access]
  have henter : (ix.enter (ctx'.defaults.qualify e'.className)).view F =
      (ix'.enter (ctx'.defaults.qualify e'.className)).view F := by
    rw [Index.view_enter, hix, Index.view_enter]
  have hcomplete : (if e'.metadataComplete then
        (ix.enter (ctx'.defaults.qualify e'.className)).markComplete
          (ctx'.defaults.qualify e'.className)
      else ix.enter (ctx'.defaults.qualify e'.className)).view F =
      (if e'.metadataComplete then
        (ix'.enter (ctx'.defaults.qualify e'.className)).markComplete
          (ctx'.defaults.qualify e'.className)
      else ix'.enter (ctx'.defaults.qualify e'.className)).view F := by
    split
    · rw [Index.view_markComplete, henter, Index.view_markComplete]
    · exact henter
  dsimp only
  cases e'.access with
  | none => exact hcomplete
  | some access => rw [Index.view_write hF, hcomplete, Index.view_write hF]

end Entity

end Declaration

end MappingMetadata
