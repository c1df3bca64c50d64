import Mathlib.Data.Option.Basic
import MappingMetadata.Proofs.Declaration.Nesting
import MappingMetadata.Proofs.Index.Canonical
import MappingMetadata.Proofs.Outcome

/-!
# What an entity writes whatever the index holds

Apart from the access type that it takes over and from merged overrides, what an entity writes
does not depend on the index. These annotations are *plain*: they are sound, and they share no
slot with an access type or an override (`Entity.plain_ownPieces`). So writing them leaves alone
all that later writes may read.
-/

namespace MappingMetadata

/-! ## Plain kinds -/

/-- Annotations of the kind wrap nothing and need no name. -/
def Kind.isSimple (k : Kind) : Bool :=
  k.member.isNone && (GlobalKind.ofScalar? k).isNone &&
    k ∉ [Kind.attributeOverride, .associationOverride]

/-- The kind is simple, and it is not that of access types. -/
def Kind.isPlain (k : Kind) : Bool := k.isSimple && k ≠ .access

/-- Sound in any case, and of no kind that writing depends on. -/
structure Annotation.Plain (a : Annotation) : Prop where
  sound : ∀ dedupe, a.Sound dedupe
  notOverride : ∀ f : Override.Family, a.kind.slot ≠ f.scalar
  notAccess : a.kind ≠ .access

theorem Kind.slot_ne_scalar {k : Kind} (hk : k.isSimple) (f : Override.Family) :
    k.slot ≠ f.scalar := by
  have hall : ∀ k ∈ all, k.isSimple →
      k.slot ≠ .attributeOverride ∧ k.slot ≠ .associationOverride := by decide +kernel
  cases f with
  | attributes => exact (hall k (mem_all k) hk).1
  | associations => exact (hall k (mem_all k) hk).2

namespace Annotation

variable {dedupe : Bool}

/-- Annotations of simple kinds are sound as soon as they are tidy. -/
theorem sound_of_simple {a : Annotation} (hk : a.kind.isSimple) (ha : a.Tidy) :
    a.Sound dedupe := by
  have hslot := Kind.slot_ne_scalar hk
  simp only [Kind.isSimple, Bool.and_eq_true, Option.isNone_iff_eq_none] at hk
  obtain ⟨⟨hmember, hglobal⟩, -⟩ := hk
  refine ⟨ha, fun k hk => ?_, fun g => ⟨fun hg => ?_, fun hg => ?_⟩, fun f hf => ?_, fun f hf => ?_⟩
  · rw [hmember] at hk
    cases hk
  · rw [(GlobalKind.ofScalar?_eq_some_iff _ g).2 hg.symm] at hglobal
    cases hglobal
  · rw [hg] at hmember
    cases g <;> cases hmember
  · refine absurd ?_ (hslot f)
    rw [hf]
    cases f <;> rfl
  · rw [hf] at hmember
    cases f <;> cases hmember

theorem plain_of_isPlain {a : Annotation} (hk : a.kind.isPlain) (ha : a.Tidy) : a.Plain := by
  obtain ⟨hsimple, haccess⟩ := Bool.and_eq_true_iff.1 hk
  exact ⟨fun _ => sound_of_simple hsimple ha, Kind.slot_ne_scalar hsimple,
    of_decide_eq_true haccess⟩

theorem plain_marker {k : Kind} (hk : k.isPlain) (site : Option Site) : (marker k site).Plain :=
  plain_of_isPlain hk (tidy_marker k site)

/-- A wrapper is sound when its members are tidy and of the right kind, and have the names that a
wrapper of overrides asks for. -/
theorem sound_wrapper {plural k : Kind} {site : Option Site} {members : List Annotation}
    (hk : plural.member = some k) (hn : k ∈ Kind.nestable) (hlen : 2 ≤ members.length)
    (hm : ∀ m ∈ members, m.kind = k ∧ m.site = none ∧ m.Tidy)
    (hnames : ∀ f : Override.Family, plural = f.wrapper →
      (∀ m ∈ members, m.Named) ∧ (dedupe → (members.map Annotation.name?).Nodup)) :
    (wrapper plural site members).Sound dedupe where
  tidy := tidy_wrapper fun m hmem => by
    obtain ⟨hkind, hsite, ht⟩ := hm m hmem
    exact ⟨⟨hsite, hkind ▸ hn⟩, ht⟩
  wrapped k' hk' := by
    have hkk : k = k' := Option.some.inj (hk.symm.trans hk')
    exact ⟨hlen, fun m hmem => (hm m hmem).1.trans hkk⟩
  notGlobal g := by
    constructor
    · rintro (rfl : plural = g.scalar)
      cases g <;> cases hk
    · rintro (rfl : plural = g.wrapper)
      cases g <;> cases hk <;> simp [Kind.nestable] at hn
  named f hf := by
    rw [show plural = f.scalar from hf] at hk
    cases f <;> cases hk
  names f hf := hnames f hf

/-- The annotation for a list of tidy things of a plain kind is plain. -/
theorem plain_ofItems {α : Type} {k plural : Kind} {one : α → Option Site → Annotation}
    (hk : k.isPlain) (hn : k ∈ Kind.nestable) (hp : plural.member = some k)
    (hone : ∀ i site, (one i site).kind = k ∧ (one i site).site = site ∧ (one i site).Tidy)
    {site : Option Site} {items : List α} {a : Annotation}
    (h : ofItems plural one site items = some a) : a.Plain := by
  rcases ofItems_eq_some h with ⟨i, -, rfl⟩ | ⟨hlen, rfl⟩
  · obtain ⟨hkind, -, htidy⟩ := hone i site
    exact plain_of_isPlain (hkind ▸ hk) htidy
  · have hslot : plural.slot = k.slot := by
      cases plural <;> cases hp <;> rfl
    refine ⟨fun dedupe => sound_wrapper hp hn (by simpa using hlen) ?_ fun f hf => ?_, ?_, ?_⟩
    · intro m hm
      obtain ⟨i, -, rfl⟩ := List.mem_map.1 hm
      exact hone i none
    · rw [hf] at hp
      cases f <;> cases hp <;> cases hk
    · intro f
      rw [show (wrapper plural site _).kind.slot = k.slot from hslot]
      exact Kind.slot_ne_scalar (Bool.and_eq_true_iff.1 hk).1 f
    · rintro (rfl : plural = .access)
      cases hp

/-- All annotations are plain. -/
def AllPlain (as : List Annotation) : Prop := ∀ a ∈ as, a.Plain

end Annotation

/-! ## Pieces -/

namespace Piece

/-- What the piece has to write is plain, as long as it does not depend on the index. -/
def Plain : Piece → Prop
  | fixed as => ∀ bs, as = .ok bs → Annotation.AllPlain bs
  | overrides .. => True

/-- Whatever does not depend on the index stays clear of the slots of overrides. -/
def Apart : Piece → Prop
  | fixed as => ∀ bs, as = .ok bs → ∀ a ∈ bs, ∀ f : Override.Family, a.kind.slot ≠ f.scalar
  | overrides .. => True

theorem Plain.apart {p : Piece} (h : p.Plain) : p.Apart := by
  cases p with
  | fixed as => exact fun bs hbs a ha => (h bs hbs a ha).notOverride
  | overrides => trivial

theorem plain_plain {as : List Annotation} (h : Annotation.AllPlain as) : (plain as).Plain := by
  intro bs hbs
  cases hbs
  exact h

theorem plain_plain_toList {a : Option Annotation} (h : ∀ b ∈ a, b.Plain) :
    (plain a.toList).Plain :=
  plain_plain fun b hb => h b (Option.mem_toList.1 hb)

theorem collect_cons_eq_ok_iff {ctx : Context} {ix : Index} {p : Piece} {ps : List Piece}
    {as : List Annotation} :
    collect ctx ix (p :: ps) = .ok as ↔
      ∃ bs rest,
        p.annotations ctx ix = .ok bs ∧ collect ctx ix ps = .ok rest ∧ as = bs ++ rest := by
  rw [collect]
  exact Outcome.bind_append_eq_ok_iff

/-- Every annotation that is collected comes from one of the pieces. -/
theorem exists_of_mem_collect {ctx : Context} {ix : Index} {ps : List Piece}
    {as : List Annotation} (h : collect ctx ix ps = .ok as) {a : Annotation} (ha : a ∈ as) :
    ∃ p ∈ ps, ∃ bs, p.annotations ctx ix = .ok bs ∧ a ∈ bs := by
  induction ps generalizing as with
  | nil =>
    cases h
    cases ha
  | cons p ps ih =>
    obtain ⟨bs, rest, hbs, hrest, rfl⟩ := collect_cons_eq_ok_iff.1 h
    rcases List.mem_append.1 ha with ha | ha
    · exact ⟨p, List.mem_cons_self, bs, hbs, ha⟩
    · obtain ⟨q, hq, hmem⟩ := ih hrest ha
      exact ⟨q, List.mem_cons_of_mem _ hq, hmem⟩

end Piece

/-! ## Declarations -/

theorem Access.sound_annotation {dedupe : Bool} (a : Access) (className : String) :
    (a.annotation className).Sound dedupe :=
  Annotation.sound_of_simple rfl (a.tidy_annotation className)

namespace Declaration

open Annotation

theorem Callbacks.plain_writes (callbacks : Callbacks) (className : String) :
    AllPlain (callbacks.writes className) := by
  intro a ha
  obtain ⟨p, hp, rfl⟩ := List.mem_map.1 ha
  obtain ⟨q, hq, hp⟩ := List.mem_filterMap.1 hp
  obtain ⟨m, -, rfl⟩ := Option.map_eq_some_iff.1 hp
  refine plain_marker ?_ _
  simp only [methods, List.mem_cons, List.not_mem_nil, or_false] at hq
  rcases hq with rfl | rfl | rfl | rfl | rfl | rfl | rfl <;> rfl

theorem BasicAttribute.plain_writes (a : BasicAttribute) (site : Site) :
    AllPlain (a.writes site) := by
  intro b hb
  simp only [writes, List.mem_append, Option.mem_toList, Option.map_eq_some_iff] at hb
  rcases hb with ((⟨c, -, rfl⟩ | hb) | ⟨t, -, rfl⟩) | ⟨e, -, rfl⟩
  · exact plain_of_isPlain rfl (c.tidy_annotation _)
  · split at hb
    · rw [List.mem_singleton.1 hb]
      exact plain_marker rfl _
    · cases hb
  · exact plain_of_isPlain rfl (t.tidy_annotation _)
  · exact plain_of_isPlain rfl (e.tidy_annotation _)

theorem JoinColumn.plain_listAnnotation (cs : List JoinColumn) (site : Option Site) :
    AllPlain (JoinColumn.listAnnotation cs site).toList := by
  intro a ha
  rw [Option.mem_toList] at ha
  exact plain_ofItems (k := .joinColumn) rfl (by decide) rfl
    (fun c site => ⟨rfl, rfl, c.tidy_annotation site⟩) ha

theorem PrimaryKeyJoinColumn.plain_listAnnotation (cs : List PrimaryKeyJoinColumn)
    (site : Option Site) : AllPlain (PrimaryKeyJoinColumn.listAnnotation cs site).toList := by
  intro a ha
  rw [Option.mem_toList] at ha
  exact plain_ofItems (k := .primaryKeyJoinColumn) rfl (by decide) rfl
    (fun c site => ⟨rfl, rfl, c.tidy_annotation site⟩) ha

namespace AssociationAttribute

/-- The annotation of an association is made for its type, from what it states. -/
theorem exists_type_of_annotation {a : AssociationAttribute} {path : ClassPath} {d : Defaults}
    {site : Site} {b : Annotation} (h : a.annotation path d site = .ok (some b)) :
    ∃ (type : Association) (target : Option String), a.associationType = some type ∧
      b = .ofEntries type.kind (some site) (a.entries d target) := by
  unfold annotation at h
  cases htype : a.associationType with
  | none =>
    rw [htype] at h
    dsimp only at h
    split at h <;> cases h
  | some type =>
    rw [htype] at h
    obtain ⟨target, -, h⟩ := Outcome.bind_eq_ok_iff.1 h
    cases h
    exact ⟨type, target, rfl, rfl⟩

theorem eq_ofEntries_of_annotation {a : AssociationAttribute} {path : ClassPath} {d : Defaults}
    {site : Site} {b : Annotation} (h : a.annotation path d site = .ok (some b)) :
    ∃ (type : Association) (target : Option String),
      b = .ofEntries type.kind (some site) (a.entries d target) := by
  obtain ⟨type, target, -, hb⟩ := exists_type_of_annotation h
  exact ⟨type, target, hb⟩

theorem plain_annotation {a : AssociationAttribute} {path : ClassPath} {d : Defaults} {site : Site}
    {b : Annotation} (h : a.annotation path d site = .ok (some b)) : b.Plain := by
  obtain ⟨type, target, rfl⟩ := eq_ofEntries_of_annotation h
  refine plain_of_isPlain (by cases type <;> rfl) (tidy_of_nesting ?_)
  simp [entries, Entry.nests]

theorem plain_pieces (a : AssociationAttribute) (ctx : Context) (site : Site) :
    ∀ p ∈ a.pieces ctx site, p.Plain := by
  intro p hp
  simp only [pieces, List.mem_cons, List.not_mem_nil, or_false] at hp
  rcases hp with rfl | rfl | rfl | rfl | rfl | rfl | rfl
  · intro as has b hb
    obtain ⟨m, hm, rfl⟩ := Outcome.map_eq_ok_iff.1 has
    rw [Option.mem_toList] at hb
    exact plain_annotation (hb ▸ hm)
  · exact Piece.plain_plain (JoinColumn.plain_listAnnotation _ _)
  · exact Piece.plain_plain_toList
      (Option.forall_mem_map.2 fun t _ => plain_of_isPlain rfl (t.tidy_annotation _ _))
  · exact Piece.plain_plain_toList
      (Option.forall_mem_map.2 fun t _ => plain_of_isPlain rfl (t.tidy_annotation _ _))
  · exact Piece.plain_plain_toList
      (Option.forall_mem_map.2 fun c _ => plain_of_isPlain rfl (c.tidy_annotation _))
  · trivial
  · trivial

end AssociationAttribute

namespace Entity

theorem plain_idClassWrites {e : Entity} {ctx : Context} {className : String}
    {as : List Annotation} (h : e.idClassWrites ctx className = .ok as) : AllPlain as := by
  obtain ⟨idClass, -, h⟩ := Outcome.bind_eq_ok_iff.1 h
  cases h
  intro a ha
  obtain ⟨c, -, rfl⟩ := Option.map_eq_some_iff.1 (Option.mem_toList.1 ha)
  exact plain_of_isPlain rfl (tidy_of_nesting (by simp [Entry.nests]))

theorem plain_listenerWrites {e : Entity} {ctx : Context} {className : String}
    {as : List Annotation} (h : e.listenerWrites ctx className = .ok as) : AllPlain as := by
  obtain ⟨classes, -, h⟩ := Outcome.bind_eq_ok_iff.1 h
  split at h
  · cases h
    exact fun a ha => by cases ha
  · cases h
    intro a ha
    rcases List.mem_cons.1 ha with rfl | ha
    · exact plain_of_isPlain rfl (tidy_of_nesting (by simp [Entry.nests]))
    · obtain ⟨p, -, ha⟩ := List.mem_flatMap.1 ha
      exact p.1.callbacks.plain_writes p.2 a ha

/-- **An entity's own pieces are plain**, its overrides apart. -/
theorem plain_ownPieces (e : Entity) (ctx : Context) (className : String) (access : Access) :
    ∀ p ∈ e.ownPieces ctx className access, p.Plain := by
  intro p hp
  simp only [ownPieces, List.mem_append, List.mem_cons, List.not_mem_nil, or_false,
    List.mem_flatMap] at hp
  rcases hp with ((rfl | rfl | rfl | rfl | rfl | rfl | rfl) | ⟨a, -, hp⟩) | (rfl | rfl | rfl)
  · refine Piece.plain_plain fun b hb => ?_
    split at hb
    · exact List.mem_singleton.1 hb ▸ plain_marker rfl _
    · cases hb
  · refine Piece.plain_plain fun b hb => ?_
    split at hb
    · exact List.mem_singleton.1 hb ▸ plain_marker rfl _
    · cases hb
  · exact fun as has => plain_idClassWrites has
  · trivial
  · trivial
  · exact Piece.plain_plain (PrimaryKeyJoinColumn.plain_listAnnotation _ _)
  · refine Piece.plain_plain fun b hb => ?_
    obtain ⟨a, -, hb⟩ := List.mem_flatMap.1 hb
    exact a.plain_writes _ b hb
  · exact a.plain_pieces ctx _ p hp
  · refine Piece.plain_plain fun b hb => ?_
    obtain ⟨name, -, rfl⟩ := List.mem_map.1 hb
    exact plain_marker rfl _
  · exact fun as has => plain_listenerWrites has
  · exact Piece.plain_plain (e.callbacks.plain_writes className)

theorem apart_pieces (e : Entity) (ctx : Context) (className : String)
    (ofClass : Option Access) : ∀ p ∈ e.pieces ctx className ofClass, p.Apart := by
  intro p hp
  rcases List.mem_cons.1 hp with rfl | hp
  · intro bs hbs a ha f
    cases hbs
    obtain ⟨access, -, rfl⟩ := Option.map_eq_some_iff.1 (Option.mem_toList.1 ha)
    exact Kind.slot_ne_scalar rfl f
  · exact (e.plain_ownPieces ctx className _ p hp).apart

end Entity

end Declaration

end MappingMetadata
