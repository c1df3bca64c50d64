import MappingMetadata.Proofs.Entity.Collecting

/-!
# Access types and enrolling

The access type of a class decides on which sites an entity puts its attributes, so it must be the
same whenever a document is applied. Enrolling states the access type that an entity declares.
Processing states one only for an entity that declares none, and then the one that its class has
already: it leaves the access type of every class as it is (`access?_writes`).
-/

namespace MappingMetadata

/-! ## Access types in the index -/

theorem Access.parse?_name (a : Access) : Access.parse? a.name = some a := by
  cases a <;> rfl

theorem Access.read_annotation (a : Access) (className : String) :
    ((a.annotation className).string? "value").bind Access.parse? = some a :=
  a.parse?_name

namespace Index

theorem access?_write (ix : Index) (a : Annotation) (c : String) :
    (ix.write a).access? c =
      if a.site = some (.onClass c) ∧ a.kind = .access then
        (a.string? "value").bind Access.parse?
      else ix.access? c := by
  have hslot : a.kind.slot = Kind.access.slot ↔ a.kind = .access := by
    constructor
    · cases a.kind <;> intro h <;> first | rfl | cases h
    · intro h
      rw [h]
  have hwrite := onSite_write ix a .access (.onClass c)
  unfold access?
  by_cases h : a.site = some (.onClass c) ∧ a.kind = .access
  · have hpos : (ix.write a).onSite c .access (.onClass c) = [a] :=
      hwrite.trans ((if_pos ⟨h.1, hslot.2 h.2⟩).trans (if_pos h.2))
    rw [hpos, if_pos h, List.findSome?_singleton]
  · have hneg : (ix.write a).onSite c .access (.onClass c) = ix.onSite c .access (.onClass c) :=
      hwrite.trans (if_neg fun hs => h ⟨hs.1, hslot.1 hs.2⟩)
    rw [hneg, if_neg h]

theorem access?_write_of_ne (ix : Index) {a : Annotation} (h : a.kind ≠ .access) (c : String) :
    (ix.write a).access? c = ix.access? c := by
  rw [access?_write]
  exact if_neg fun ha => h ha.2

theorem access?_writeAll_of_ne (ix : Index) {as : List Annotation}
    (h : ∀ a ∈ as, a.kind ≠ .access) (c : String) : (ix.writeAll as).access? c = ix.access? c := by
  induction as generalizing ix with
  | nil => rfl
  | cons a as ih =>
    rw [writeAll_cons, ih _ fun b hb => h b (List.mem_cons_of_mem _ hb)]
    exact access?_write_of_ne ix (h a List.mem_cons_self) c

theorem access?_write_annotation (ix : Index) (access : Access) (className c : String) :
    (ix.write (access.annotation className)).access? c =
      if className = c then some access else ix.access? c := by
  rw [access?_write, access.read_annotation]
  have hsite : (access.annotation className).site = some (.onClass className) := rfl
  by_cases h : className = c
  · rw [if_pos h, if_pos ⟨by rw [hsite, h], rfl⟩]
  · rw [if_neg h, if_neg fun hs => h (by simpa [hsite] using hs.1)]

theorem access?_congr {ix ix' : Index} {c : String}
    (h : ix'.ofKind c .access = ix.ofKind c .access) : ix'.access? c = ix.access? c := by
  unfold access? onSite
  rw [h]

theorem indexed_congr {ix ix' : Index} {site : Site}
    (h : ∀ k, ix'.ofKind site.className k = ix.ofKind site.className k) (f : Override.Family) :
    Override.indexed ix' f site = Override.indexed ix f site := by
  rw [Override.indexed_eq, Override.indexed_eq]
  unfold onSite
  rw [h, h]

end Index

namespace Declaration.Entity

/-! ## Processing -/

/-- What an entity writes beside the access type that it takes over states no access type. -/
theorem ne_access_of_collect {e : Entity} {ctx : Context} {className : String} {access : Access}
    {ix : Index} {as : List Annotation}
    (h : Piece.collect ctx ix (e.ownPieces ctx className access) = .ok as) :
    ∀ a ∈ as, a.kind ≠ .access := by
  intro a ha
  obtain ⟨p, hp, bs, hbs, ha⟩ := Piece.exists_of_mem_collect h ha
  rcases Piece.mem_annotations hbs ha with rfl | ⟨f, site, -, ho⟩
  · exact (e.plain_ownPieces ctx className access _ hp bs rfl a ha).notAccess
  · intro hk
    have hslot := ho.2
    rw [hk] at hslot
    cases f <;> cases hslot

/-- Processing an entity without an access type states the one that its class has, by the index or
by default. Otherwise the access types in the index stay as they are. -/
theorem access?_writeAll_writes {e : Entity} {ctx : Context} {className : String} {ix : Index}
    {as : List Annotation} (h : e.writes ctx className ix = .ok as) (c : String) :
    (ix.writeAll as).access? c =
      if className = c ∧ e.access = none then ctx.access? ix c else ix.access? c := by
  obtain ⟨bs, rest, hbs, hrest, rfl⟩ := Piece.collect_cons_eq_ok_iff.1 h
  cases hbs
  rw [Index.writeAll_append, Index.access?_writeAll_of_ne _ (ne_access_of_collect hrest)]
  unfold inheritedAccess
  cases hdecl : e.access with
  | some access => simp
  | none =>
    rw [if_neg (by simp)]
    by_cases hc : className = c
    · subst hc
      rw [if_pos ⟨rfl, rfl⟩]
      cases hclass : ctx.access? ix className with
      | none => exact (Option.or_eq_none_iff.1 hclass).1
      | some access =>
        exact (ix.access?_write_annotation access className className).trans (if_pos rfl)
    · rw [if_neg fun h => hc h.1]
      cases ctx.access? ix className with
      | none => rfl
      | some access => exact (ix.access?_write_annotation access className c).trans (if_neg hc)

/-- **Processing leaves the access type of every class as it is.** -/
theorem access?_writes {e : Entity} {ctx : Context} {className : String} {ix : Index}
    {as : List Annotation} (h : e.writes ctx className ix = .ok as) (c : String) :
    ctx.access? (ix.writeAll as) c = ctx.access? ix c := by
  rw [Context.access?, access?_writeAll_writes h]
  split
  · rw [Context.access?, Option.or_assoc, Option.or_self]
  · rfl

/-! ## Enrolling -/

/-- The access type that an entity states when it is enrolled. -/
def accessWrites (e : Entity) (d : Defaults) : List Annotation :=
  (e.access.map fun a => a.annotation (d.qualify e.className)).toList

/-- The index after enrolling an entity, with the access type written last. -/
theorem enrolled_eq (e : Entity) (d : Defaults) (ix : Index) :
    e.enrolled d ix = Index.writeAll
      (if e.metadataComplete then (ix.enter (d.qualify e.className)).markComplete
        (d.qualify e.className) else ix.enter (d.qualify e.className)) (e.accessWrites d) := by
  unfold enrolled accessWrites
  cases e.access <;> rfl

theorem ofKind_enrolled (e : Entity) (d : Defaults) (ix : Index) (c : String) (k : Kind) :
    (e.enrolled d ix).ofKind c k = (ix.writeAll (e.accessWrites d)).ofKind c k := by
  rw [enrolled_eq]
  refine Index.ofKind_writeAll_congr ?_ _
  split
  · rw [Index.ofKind_markComplete, Index.ofKind_enter]
  · rw [Index.ofKind_enter]

theorem access?_enrolled (e : Entity) (d : Defaults) (ix : Index) (c : String) :
    (e.enrolled d ix).access? c =
      (if d.qualify e.className = c then e.access else none).or (ix.access? c) := by
  rw [Index.access?_congr (e.ofKind_enrolled d ix c .access)]
  unfold accessWrites
  cases e.access with
  | none => simp
  | some access =>
    have hwrite := ix.access?_write_annotation access (d.qualify e.className) c
    refine Eq.trans hwrite ?_
    split <;> simp

/-- Enrolling enters the class of the entity, and no other. -/
theorem keys_enrolled (e : Entity) (d : Defaults) (ix : Index) :
    (e.enrolled d ix).classes.keys =
      if d.qualify e.className ∈ ix.classes.keys then ix.classes.keys
      else ix.classes.keys ++ [d.qualify e.className] := by
  have henter := ix.keys_enter (d.qualify e.className)
  have hmem := ix.mem_keys_enter (d.qualify e.className)
  have hmarked : (if e.metadataComplete then (ix.enter (d.qualify e.className)).markComplete
      (d.qualify e.className) else ix.enter (d.qualify e.className)).classes.keys =
      (ix.enter (d.qualify e.className)).classes.keys := by
    split
    · rw [Index.markComplete, Dict.keys_put, if_pos hmem]
    · rfl
  have hwrites : ∀ a ∈ e.accessWrites d, ∀ site, a.site = some site →
      site.className ∈ (ix.enter (d.qualify e.className)).classes.keys := by
    intro a ha site hsite
    obtain ⟨access, -, rfl⟩ := Option.map_eq_some_iff.1 (Option.mem_toList.1 ha)
    cases hsite
    exact hmem
  rw [enrolled_eq, Index.keys_writeAll_of_mem (by rw [hmarked]; exact hwrites), hmarked, henter]

theorem isComplete_enrolled (e : Entity) (d : Defaults) (ix : Index) (c : String) :
    (e.enrolled d ix).isComplete c =
      (ix.isComplete c || (e.metadataComplete && decide (d.qualify e.className = c))) := by
  rw [enrolled_eq, Index.isComplete_writeAll]
  cases e.metadataComplete with
  | true => simp [Index.isComplete_markComplete, Index.isComplete_enter]
  | false => simp [Index.isComplete_enter]

end Declaration.Entity

end MappingMetadata
