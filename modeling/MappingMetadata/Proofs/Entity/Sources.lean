import MappingMetadata.Proofs.Entity.Placement
import MappingMetadata.Proofs.Override.Tables

/-!
# Where the tables and associations of an entity are from

**Theorem (`Entity.accounted_of_mem_writes`).** A join table, a collection table or an association
that an entity writes is made from the declaration of one of its associations.

**Theorem (`Entity.table_of_mem_writes`).** A join table in the overrides that an entity writes is
that of an association override which the entity or one of its associations declares, or could be
carried over from the index.

Both go over the pieces of an entity. All but those of associations have other kinds altogether.
-/

namespace MappingMetadata

open Override

/-- Is it the kind of a table or of an association? -/
def Kind.isDefaulted (k : Kind) : Bool :=
  k ∈ [Kind.joinTable, .collectionTable, .oneToOne, .oneToMany, .manyToOne, .manyToMany]

namespace Declaration

/-- The association overrides of a class and of its associations. -/
def Entity.allAssociationOverrides (e : Entity) : List AssociationOverride :=
  e.associationOverrides ++ e.associations.flatMap AssociationAttribute.associationOverrides

/-- If the annotation is a table or states an association, it is made from the declaration of one of
the associations. -/
structure Accounted (d : Defaults) (xs : List AssociationAttribute) (a : Annotation) : Prop where
  joinTable : a.kind = .joinTable →
    ∃ x ∈ xs, ∃ t site, x.joinTable = some t ∧ a = t.annotation d site
  collectionTable : a.kind = .collectionTable →
    ∃ x ∈ xs, ∃ t site, x.collectionTable = some t ∧ a = t.annotation d site
  association : ∀ type : Association, a.kind = type.kind →
    ∃ x ∈ xs, ∃ target site, x.associationType = some type ∧
      a = .ofEntries type.kind site (x.entries d target)

theorem accounted_of_kind {d : Defaults} {xs : List AssociationAttribute} {a : Annotation}
    (h : a.kind.isDefaulted = false) : Accounted d xs a := by
  refine ⟨fun hk => ?_, fun hk => ?_, fun type hk => ?_⟩
  · rw [hk] at h
    cases h
  · rw [hk] at h
    cases h
  · rw [hk] at h
    cases type <;> cases h

end Declaration

/-! ## Pieces -/

namespace Piece

open Declaration
open Annotation (ofItems)

variable {d : Defaults} {xs : List AssociationAttribute} {os : List AssociationOverride}

/-- What the piece has to write is accounted for by the associations, and the association overrides
that it declares are among the given ones. -/
def Accounted (d : Defaults) (xs : List AssociationAttribute) (os : List AssociationOverride) :
    Piece → Prop
  | fixed as => ∀ bs, as = .ok bs → ∀ a ∈ bs, Declaration.Accounted d xs a
  | overrides .attributes _ _ => True
  | overrides .associations declared _ => ∀ o ∈ declared, o ∈ os

theorem accounted_plain {as : List Annotation} (h : ∀ a ∈ as, Declaration.Accounted d xs a) :
    (plain as).Accounted d xs os := by
  rintro _ ⟨⟩
  exact h

theorem accounted_plain_of_kind {as : List Annotation} (h : ∀ a ∈ as, a.kind.isDefaulted = false) :
    (plain as).Accounted d xs os :=
  accounted_plain fun a ha => accounted_of_kind (h a ha)

/-- The one annotation for a list of items is accounted for when it is of other kinds. -/
theorem accounted_ofItems {α : Type} {one : α → Option Site → Annotation} {k plural : Kind}
    (hone : ∀ i site, (one i site).kind = k) (hk : k.isDefaulted = false)
    (hplural : plural.isDefaulted = false) (site : Option Site) (items : List α) :
    (plain (ofItems plural one site items).toList).Accounted d xs os := by
  refine accounted_plain_of_kind fun a ha => ?_
  rcases Annotation.ofItems_eq_some (Option.mem_toList.1 ha) with ⟨i, -, rfl⟩ | ⟨-, rfl⟩
  · exact hone i site ▸ hk
  · exact hplural

theorem accounted_map_toList {α : Type} {f : α → Annotation} {o : Option α}
    (h : ∀ x, o = some x → Declaration.Accounted d xs (f x)) :
    (plain (o.map f).toList).Accounted d xs os := by
  refine accounted_plain fun a ha => ?_
  obtain ⟨x, hx, rfl⟩ := Option.map_eq_some_iff.1 (Option.mem_toList.1 ha)
  exact h x hx

end Piece

/-! ## Associations and entities -/

namespace Declaration

variable {ctx : Context} {xs : List AssociationAttribute} {os : List AssociationOverride}

theorem AssociationAttribute.accounted_annotation {x : AssociationAttribute} (hx : x ∈ xs)
    {path : ClassPath} {d : Defaults} {site : Site} {a : Annotation}
    (h : x.annotation path d site = .ok (some a)) : Accounted d xs a := by
  obtain ⟨type, target, htype, rfl⟩ := exists_type_of_annotation h
  refine ⟨fun hk => ?_, fun hk => ?_, fun type' hk => ?_⟩
  · cases type <;> cases hk
  · cases type <;> cases hk
  · obtain rfl : type = type' := by
      cases type <;> cases type' <;> first | rfl | cases hk
    exact ⟨x, hx, target, some site, htype, rfl⟩

theorem AssociationAttribute.accounted_pieces {x : AssociationAttribute} (hx : x ∈ xs)
    (hos : ∀ o ∈ x.associationOverrides, o ∈ os) (site : Site) :
    ∀ p ∈ x.pieces ctx site, p.Accounted ctx.defaults xs os := by
  simp only [pieces, List.forall_mem_cons]
  refine ⟨?_, ?_, ?_, ?_, ?_, trivial, hos, List.forall_mem_nil _⟩
  · intro as has a ha
    obtain ⟨m, hm, rfl⟩ := Outcome.map_eq_ok_iff.1 has
    rw [Option.mem_toList] at ha
    exact AssociationAttribute.accounted_annotation hx (ha ▸ hm)
  · exact Piece.accounted_ofItems (k := .joinColumn) (fun _ _ => rfl) rfl rfl _ _
  · refine Piece.accounted_map_toList fun t ht => ⟨fun _ => ?_, fun hk => ?_, fun type hk => ?_⟩
    · exact ⟨x, hx, t, some site, ht, rfl⟩
    · cases hk
    · cases type <;> cases hk
  · refine Piece.accounted_map_toList fun t ht => ⟨fun hk => ?_, fun _ => ?_, fun type hk => ?_⟩
    · cases hk
    · exact ⟨x, hx, t, some site, ht, rfl⟩
    · cases type <;> cases hk
  · exact Piece.accounted_map_toList fun c _ => accounted_of_kind rfl

namespace Entity

theorem accounted_ownPieces (e : Entity) (className : String) (access : Access) :
    ∀ p ∈ e.ownPieces ctx className access,
      p.Accounted ctx.defaults e.associations e.allAssociationOverrides := by
  have hcallbacks : ∀ (callbacks : Callbacks) (c : String),
      ∀ a ∈ callbacks.writes c, a.kind.isDefaulted = false := by
    intro callbacks c a ha
    have hkind := (Callbacks.of_mem_writes ha).1
    generalize a.kind = k at hkind ⊢
    cases k <;> first | rfl | cases hkind
  simp only [ownPieces, List.forall_mem_append, List.forall_mem_cons, List.forall_mem_flatMap]
  refine ⟨⟨⟨?_, ?_, ?_, trivial, fun o ho => List.mem_append_left _ ho, ?_, ?_,
    List.forall_mem_nil _⟩, ?_⟩, ?_, ?_, ?_, List.forall_mem_nil _⟩
  · refine Piece.accounted_plain_of_kind fun a ha => ?_
    split at ha
    · exact List.mem_singleton.1 ha ▸ rfl
    · cases ha
  · refine Piece.accounted_plain_of_kind fun a ha => ?_
    split at ha
    · exact List.mem_singleton.1 ha ▸ rfl
    · cases ha
  · intro as has a ha
    obtain ⟨idClass, -, has⟩ := Outcome.bind_eq_ok_iff.1 has
    cases has
    obtain ⟨c, -, rfl⟩ := Option.map_eq_some_iff.1 (Option.mem_toList.1 ha)
    exact accounted_of_kind rfl
  · exact Piece.accounted_ofItems (k := .primaryKeyJoinColumn) (fun _ _ => rfl) rfl rfl _ _
  · refine Piece.accounted_plain_of_kind (List.forall_mem_flatMap.2 fun x _ a ha => ?_)
    simp only [BasicAttribute.writes, List.mem_append, Option.mem_toList,
      Option.map_eq_some_iff] at ha
    rcases ha with ((⟨c, -, rfl⟩ | ha) | ⟨t, -, rfl⟩) | ⟨f, -, rfl⟩
    · rfl
    · split at ha
      · exact List.mem_singleton.1 ha ▸ rfl
      · cases ha
    · rfl
    · rfl
  · exact fun x hx => x.accounted_pieces hx
      (fun o ho => List.mem_append_right _ (List.mem_flatMap.2 ⟨x, hx, ho⟩)) _
  · exact Piece.accounted_plain_of_kind (List.forall_mem_map.2 fun _ _ => rfl)
  · intro as has a ha
    obtain ⟨classes, -, has⟩ := Outcome.bind_eq_ok_iff.1 has
    split at has
    · cases has
      cases ha
    · cases has
      rcases List.mem_cons.1 ha with rfl | ha
      · exact accounted_of_kind rfl
      · obtain ⟨p, -, ha⟩ := List.mem_flatMap.1 ha
        exact accounted_of_kind (hcallbacks p.1.callbacks p.2 a ha)
  · exact Piece.accounted_plain_of_kind (hcallbacks e.callbacks className)

theorem accounted_pieces (e : Entity) (className : String) (ofClass : Option Access) :
    ∀ p ∈ e.pieces ctx className ofClass,
      p.Accounted ctx.defaults e.associations e.allAssociationOverrides := by
  refine List.forall_mem_cons.2 ⟨?_, e.accounted_ownPieces className _⟩
  exact Piece.accounted_map_toList fun _ _ => accounted_of_kind rfl

variable {e : Entity} {className : String} {ix : Index} {as : List Annotation} {a : Annotation}

/-- **Tables and associations are made from the associations that an entity declares.** -/
theorem accounted_of_mem_writes (h : e.writes ctx className ix = .ok as) (ha : a ∈ as) :
    Accounted ctx.defaults e.associations a := by
  obtain ⟨p, hp, bs, hbs, ha⟩ := Piece.exists_of_mem_collect h ha
  have haccounted := e.accounted_pieces className _ p hp
  cases p with
  | fixed cs => exact haccounted bs hbs a ha
  | overrides f declared site =>
    refine accounted_of_kind ?_
    have hslot := (occupies_of_overrides hbs a ha).2
    rcases slot_eq_scalar_iff.1 hslot with hk | hk <;> rw [hk] <;> cases f <;> rfl

/-- **Join tables of overrides are declared, or were in the index.** -/
theorem table_of_mem_writes (h : e.writes ctx className ix = .ok as) (ha : a ∈ as)
    (hkind : a.kind.slot = .associationOverride) {v : Value} (hv : StatesTable a v) :
    (∃ o ∈ e.allAssociationOverrides, Tabled ctx.defaults o v) ∨ CarriesTable ix v := by
  obtain ⟨p, hp, bs, hbs, ha⟩ := Piece.exists_of_mem_collect h ha
  have haccounted := e.accounted_pieces className _ p hp
  have hapart := e.apart_pieces ctx className _ p hp
  match p with
  | .fixed cs => exact absurd hkind (hapart bs hbs a ha .associations)
  | .overrides .attributes declared site =>
    have hslot := (occupies_of_overrides hbs a ha).2
    rw [hkind] at hslot
    cases hslot
  | .overrides .associations declared site =>
    exact (table_of_overrides hbs ha hv).imp_left fun ⟨o, ho, ht⟩ => ⟨o, haccounted o ho, ht⟩

end Entity

end Declaration

end MappingMetadata
