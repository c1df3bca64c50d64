import MappingMetadata.Proofs.Entity.Collecting

/-!
# Where an entity puts its annotations

Whatever an entity writes for an attribute goes to one site, and which one that is depends on the
access type by which the entity goes: its own, else that of its class, else by fields.

**Theorem (`exists_placed`).** What an entity writes falls into parts: for the class, for each
basic attribute, for each association, for the transient attributes, and for events. The parts for
attributes are on the sites that the access type gives, transient attributes are marked on their
fields, and all but the callbacks of listeners is on the class or its members.
-/

namespace MappingMetadata

/-- The kinds that mark a method to be called at an event. -/
def Kind.isCallback (k : Kind) : Bool :=
  k ∈ [Kind.prePersist, .preRemove, .preUpdate, .postPersist, .postUpdate, .postRemove, .postLoad]

theorem Access.className_site (access : Access) (className name : String) :
    (access.site className name).className = className := by
  cases access <;> rfl

theorem Annotation.site_ofItems {α : Type} {one : α → Option Site → Annotation} {plural : Kind}
    (hone : ∀ i site, (one i site).site = site) {site : Option Site} {items : List α}
    {a : Annotation} (h : ofItems plural one site items = some a) : a.site = site := by
  rcases ofItems_eq_some h with ⟨i, -, rfl⟩ | ⟨-, rfl⟩
  · exact hone i site
  · rfl

/-! ## Pieces on one site -/

namespace Piece

variable {ctx : Context} {ix : Index} {site : Site}

/-- Whatever is written for the piece is on the site. -/
def On (site : Site) : Piece → Prop
  | fixed as => ∀ bs, as = .ok bs → ∀ a ∈ bs, a.site = some site
  | overrides _ _ site' => site' = site

theorem on_plain {as : List Annotation} (h : ∀ a ∈ as, a.site = some site) :
    (plain as).On site := by
  intro bs hbs
  cases hbs
  exact h

theorem on_plain_toList {o : Option Annotation} (h : ∀ a, o = some a → a.site = some site) :
    (plain o.toList).On site :=
  on_plain fun a ha => h a (Option.mem_toList.1 ha)

theorem on_plain_map_toList {α : Type} {f : α → Annotation} (h : ∀ x, (f x).site = some site)
    (o : Option α) : (plain (o.map f).toList).On site := by
  refine on_plain_toList fun a ha => ?_
  obtain ⟨x, -, rfl⟩ := Option.map_eq_some_iff.1 ha
  exact h x

theorem on_of_collect {ps : List Piece} (hps : ∀ p ∈ ps, p.On site) {as : List Annotation}
    (h : collect ctx ix ps = .ok as) : ∀ a ∈ as, a.site = some site := by
  intro a ha
  obtain ⟨p, hp, bs, hbs, ha⟩ := exists_of_mem_collect h ha
  have hon := hps p hp
  cases p with
  | fixed cs => exact hon bs hbs a ha
  | overrides f declared site' =>
    rw [← show site' = site from hon]
    exact (Override.occupies_of_overrides hbs a ha).1

/-! ## Collecting part by part -/

theorem collect_singleton (ctx : Context) (ix : Index) (p : Piece) :
    collect ctx ix [p] = p.annotations ctx ix := by
  cases h : p.annotations ctx ix with
  | error e => rw [collect, h]; rfl
  | ok as =>
    rw [collect, h]
    exact congrArg Except.ok (List.append_nil as)

theorem collect_append_eq_ok_iff {ps qs : List Piece} {as : List Annotation} :
    collect ctx ix (ps ++ qs) = .ok as ↔
      ∃ bs cs, collect ctx ix ps = .ok bs ∧ collect ctx ix qs = .ok cs ∧ as = bs ++ cs := by
  induction ps generalizing as with
  | nil =>
    constructor
    · intro h
      exact ⟨[], as, rfl, h, rfl⟩
    · rintro ⟨bs, cs, hbs, hcs, rfl⟩
      cases hbs
      exact hcs
  | cons p ps ih =>
    rw [List.cons_append, collect_cons_eq_ok_iff]
    constructor
    · rintro ⟨as₁, rest, has₁, hrest, rfl⟩
      obtain ⟨bs, cs, hbs, hcs, rfl⟩ := ih.1 hrest
      exact ⟨as₁ ++ bs, cs, collect_cons_eq_ok_iff.2 ⟨as₁, bs, has₁, hbs, rfl⟩, hcs,
        (List.append_assoc ..).symm⟩
    · rintro ⟨bs, cs, hbs, hcs, rfl⟩
      obtain ⟨as₁, rest, has₁, hrest, rfl⟩ := collect_cons_eq_ok_iff.1 hbs
      exact ⟨as₁, rest ++ cs, has₁, ih.2 ⟨rest, cs, hrest, hcs, rfl⟩, List.append_assoc ..⟩

theorem collect_flatMap {α : Type} {f : α → List Piece} {xs : List α} {as : List Annotation}
    (h : collect ctx ix (xs.flatMap f) = .ok as) :
    ∃ ass, List.Forall₂ (fun x bs => collect ctx ix (f x) = .ok bs) xs ass ∧ as = ass.flatten := by
  induction xs generalizing as with
  | nil =>
    cases h
    exact ⟨[], .nil, rfl⟩
  | cons x xs ih =>
    rw [List.flatMap_cons] at h
    obtain ⟨bs, cs, hbs, hcs, rfl⟩ := collect_append_eq_ok_iff.1 h
    obtain ⟨ass, hass, rfl⟩ := ih hcs
    exact ⟨bs :: ass, .cons hbs hass, rfl⟩

end Piece

namespace Declaration

/-! ## Attributes -/

theorem BasicAttribute.site_of_mem_writes (a : BasicAttribute) {site : Site} :
    ∀ b ∈ a.writes site, b.site = some site := by
  intro b hb
  simp only [writes, List.mem_append, Option.mem_toList, Option.map_eq_some_iff] at hb
  rcases hb with ((⟨c, -, rfl⟩ | hb) | ⟨t, -, rfl⟩) | ⟨e, -, rfl⟩
  · rfl
  · split at hb
    · rw [List.mem_singleton.1 hb]
      rfl
    · cases hb
  · rfl
  · rfl

theorem AssociationAttribute.on_pieces (a : AssociationAttribute) (ctx : Context) (site : Site) :
    ∀ p ∈ a.pieces ctx site, p.On site := by
  intro p hp
  simp only [pieces, List.mem_cons, List.not_mem_nil, or_false] at hp
  rcases hp with rfl | rfl | rfl | rfl | rfl | rfl | rfl
  · intro bs hbs b hb
    obtain ⟨m, hm, rfl⟩ := Outcome.map_eq_ok_iff.1 hbs
    rw [Option.mem_toList] at hb
    obtain ⟨type, target, rfl⟩ := eq_ofEntries_of_annotation (hb ▸ hm)
    rfl
  · exact Piece.on_plain_toList fun b hb => Annotation.site_ofItems (fun _ _ => rfl) hb
  · exact Piece.on_plain_map_toList (fun _ => rfl) _
  · exact Piece.on_plain_map_toList (fun _ => rfl) _
  · exact Piece.on_plain_map_toList (fun _ => rfl) _
  · exact rfl
  · exact rfl

/-! ## Events -/

/-- Callbacks are annotated on methods, with kinds of their own. -/
theorem Callbacks.of_mem_writes {callbacks : Callbacks} {className : String} {a : Annotation}
    (h : a ∈ callbacks.writes className) :
    a.kind.isCallback ∧ ∃ method, a.site = some (.onMethod className method) := by
  obtain ⟨p, hp, rfl⟩ := List.mem_map.1 h
  obtain ⟨q, hq, hp⟩ := List.mem_filterMap.1 hp
  obtain ⟨m, -, rfl⟩ := Option.map_eq_some_iff.1 hp
  refine ⟨?_, m, rfl⟩
  simp only [methods, List.mem_cons, List.not_mem_nil, or_false] at hq
  rcases hq with rfl | rfl | rfl | rfl | rfl | rfl | rfl <;> rfl

namespace Entity

/-- Listeners are stated on the class; their callbacks go to the classes of the listeners. -/
theorem of_mem_listenerWrites {e : Entity} {ctx : Context} {className : String}
    {as : List Annotation} (h : e.listenerWrites ctx className = .ok as) {a : Annotation}
    (ha : a ∈ as) : a.site = some (.onClass className) ∨
      a.kind.isCallback ∧ ∃ l ∈ e.entityListeners, ∃ listener method,
        l.resolve ctx className = .ok listener ∧ a.site = some (.onMethod listener method) := by
  obtain ⟨classes, hclasses, h⟩ := Outcome.bind_eq_ok_iff.1 h
  split at h
  · cases h
    cases ha
  · cases h
    rcases List.mem_cons.1 ha with rfl | ha
    · exact Or.inl rfl
    · obtain ⟨p, hp, ha⟩ := List.mem_flatMap.1 ha
      obtain ⟨hkind, method, hsite⟩ := Callbacks.of_mem_writes ha
      have hresolve : p.1.resolve ctx className = .ok p.2 :=
        List.forall₂_zip (Outcome.mapM_eq_ok_iff.1 hclasses) hp
      exact Or.inr ⟨hkind, p.1, (List.of_mem_zip hp).1, p.2, method, hresolve, hsite⟩

/-! ## All that an entity writes -/

theorem run_process_eq_ok_iff {e : Entity} {ctx : Context} {className : String} {ix ix' : Index}
    {n : Nat} : (e.process ctx (some className)).run ix = .ok n ix' ↔
      ∃ as, e.writes ctx className ix = .ok as ∧ n = as.length ∧ ix' = ix.writeAll as := by
  rw [run_process]
  cases e.writes ctx className ix <;> simp [eq_comm]

/-- The access type that an entity goes by: its own, else that of its class, else by fields. -/
def accessUnder (e : Entity) (ofClass : Option Access) : Access := (e.access.or ofClass).getD .field

theorem pieces_eq (e : Entity) (ctx : Context) (className : String) (ofClass : Option Access) :
    e.pieces ctx className ofClass =
      .plain ((e.inheritedAccess ofClass).map fun a => a.annotation className).toList ::
        e.ownPieces ctx className (e.accessUnder ofClass) := by
  have haccess : e.access.or (e.inheritedAccess ofClass) = e.access.or ofClass := by
    unfold inheritedAccess
    cases e.access <;> rfl
  rw [pieces, accessUnder, ← haccess]

/-- What an entity writes, by what it is for. -/
structure Parts where
  /-- For the class itself, its events apart. -/
  ofClass : List Annotation
  /-- For each basic attribute. -/
  basics : List (List Annotation)
  /-- For each association. -/
  associations : List (List Annotation)
  /-- For the transient attributes. -/
  transients : List Annotation
  /-- For the listeners of the class, their callbacks and those of the class. -/
  events : List Annotation

namespace Parts

/-- All parts, in the order in which they are written. -/
def all (p : Parts) : List Annotation :=
  p.ofClass ++ p.basics.flatten ++ p.associations.flatten ++ p.transients ++ p.events

/-- The parts are those of an entity, each on the sites where it belongs under an access type. -/
structure Placed (p : Parts) (e : Entity) (ctx : Context) (className : String) (access : Access)
    (ix : Index) : Prop where
  ofClass : ∀ a ∈ p.ofClass, a.site = some (.onClass className)
  basics : List.Forall₂ (fun (x : BasicAttribute) as =>
      as = x.writes (access.site className x.name) ∧
        ∀ a ∈ as, a.site = some (access.site className x.name)) e.basicAttributes p.basics
  associations : List.Forall₂ (fun (x : AssociationAttribute) as =>
      Piece.collect ctx ix (x.pieces ctx (access.site className x.name)) = .ok as ∧
        ∀ a ∈ as, a.site = some (access.site className x.name)) e.associations p.associations
  transients : p.transients =
    e.transientAttributes.map fun name => .marker .transient (some (.onField className name))
  events : ∃ as, e.listenerWrites ctx className = .ok as ∧
    p.events = as ++ e.callbacks.writes className

/-- Everything stands on the class and its members, but for callbacks of listeners. -/
theorem Placed.exists_site {p : Parts} {e : Entity} {ctx : Context} {className : String}
    {access : Access} {ix : Index} (h : p.Placed e ctx className access ix) {a : Annotation}
    (ha : a ∈ p.all) :
    ∃ site, a.site = some site ∧ (site.className = className ∨ a.kind.isCallback ∧
      ∃ l ∈ e.entityListeners, l.resolve ctx className = .ok site.className) := by
  simp only [all, List.mem_append, List.mem_flatten] at ha
  rcases ha with (((ha | ⟨as, has, ha⟩) | ⟨as, has, ha⟩) | ha) | ha
  · exact ⟨_, h.ofClass a ha, Or.inl rfl⟩
  · obtain ⟨x, -, -, hsite⟩ := exists_of_mem_forall₂ h.basics has
    exact ⟨_, hsite a ha, Or.inl (access.className_site _ _)⟩
  · obtain ⟨x, -, -, hsite⟩ := exists_of_mem_forall₂ h.associations has
    exact ⟨_, hsite a ha, Or.inl (access.className_site _ _)⟩
  · rw [h.transients] at ha
    obtain ⟨name, -, rfl⟩ := List.mem_map.1 ha
    exact ⟨_, rfl, Or.inl rfl⟩
  · obtain ⟨as, has, hevents⟩ := h.events
    rw [hevents, List.mem_append] at ha
    rcases ha with ha | ha
    · rcases of_mem_listenerWrites has ha with
        hsite | ⟨hkind, l, hl, listener, method, hresolve, hsite⟩
      · exact ⟨_, hsite, Or.inl rfl⟩
      · exact ⟨_, hsite, Or.inr ⟨hkind, l, hl, hresolve⟩⟩
    · obtain ⟨-, method, hsite⟩ := Callbacks.of_mem_writes ha
      exact ⟨_, hsite, Or.inl rfl⟩

end Parts

theorem site_of_mem_idClassWrites {e : Entity} {ctx : Context} {className : String}
    {as : List Annotation} (h : e.idClassWrites ctx className = .ok as) :
    ∀ a ∈ as, a.site = some (.onClass className) := by
  obtain ⟨idClass, -, h⟩ := Outcome.bind_eq_ok_iff.1 h
  cases h
  intro a ha
  obtain ⟨c, -, rfl⟩ := Option.map_eq_some_iff.1 (Option.mem_toList.1 ha)
  rfl

/-- The pieces of an entity begin with those for its class. -/
theorem exists_classPieces (e : Entity) (ctx : Context) (className : String)
    (ofClass : Option Access) :
    let site := (e.accessUnder ofClass).site className
    ∃ ps, (∀ p ∈ ps, p.On (.onClass className)) ∧ e.pieces ctx className ofClass =
      ps ++ ([.plain (e.basicAttributes.flatMap fun x => x.writes (site x.name))] ++
        ((e.associations.flatMap fun x => x.pieces ctx (site x.name)) ++
          ([.plain (e.transientAttributes.map fun name =>
              .marker .transient (some (.onField className name)))] ++
            [.fixed (e.listenerWrites ctx className),
              .plain (e.callbacks.writes className)]))) := by
  intro site
  refine ⟨[_, _, _, _, _, _, _], ?_, (e.pieces_eq ctx className ofClass).trans rfl⟩
  intro p hp
  simp only [List.mem_cons, List.not_mem_nil, or_false] at hp
  have hmarker : ∀ (b : Bool) (k : Kind), (Piece.plain (if b then
      [.marker k (some (.onClass className))] else [])).On (.onClass className) := by
    intro b k
    refine Piece.on_plain fun a ha => ?_
    split at ha
    · rw [List.mem_singleton.1 ha]
      rfl
    · cases ha
  rcases hp with rfl | rfl | rfl | rfl | rfl | rfl | rfl
  · exact Piece.on_plain_map_toList (fun _ => rfl) _
  · exact hmarker _ _
  · exact hmarker _ _
  · exact fun as has => site_of_mem_idClassWrites has
  · exact rfl
  · exact rfl
  · exact Piece.on_plain_toList fun a ha => Annotation.site_ofItems (fun _ _ => rfl) ha

/-- **Where an entity puts what it writes.** -/
theorem exists_placed {e : Entity} {ctx : Context} {className : String} {ix : Index}
    {as : List Annotation} (h : e.writes ctx className ix = .ok as) :
    ∃ p : Parts, as = p.all ∧
      p.Placed e ctx className (e.accessUnder (ctx.access? ix className)) ix := by
  let access := e.accessUnder (ctx.access? ix className)
  obtain ⟨ps, hps, hpieces⟩ := e.exists_classPieces ctx className (ctx.access? ix className)
  rw [writes, hpieces] at h
  obtain ⟨ofClass, as₁, hclass, h₁, rfl⟩ := Piece.collect_append_eq_ok_iff.1 h
  obtain ⟨basics, as₂, hbasics, h₂, rfl⟩ := Piece.collect_append_eq_ok_iff.1 h₁
  obtain ⟨_, as₃, hassociations, h₃, rfl⟩ := Piece.collect_append_eq_ok_iff.1 h₂
  obtain ⟨transients, as₄, htransients, h₄, rfl⟩ := Piece.collect_append_eq_ok_iff.1 h₃
  obtain ⟨listeners, callbacks, hlisteners, hcallbacks, rfl⟩ := Piece.collect_cons_eq_ok_iff.1 h₄
  obtain ⟨associations, hforall, rfl⟩ := Piece.collect_flatMap hassociations
  rw [Piece.collect_singleton] at hbasics htransients hcallbacks
  cases hbasics
  cases htransients
  cases hcallbacks
  refine ⟨⟨ofClass, e.basicAttributes.map fun x => x.writes (access.site className x.name),
    associations, _, _⟩, ?_, Piece.on_of_collect hps hclass, ?_, ?_, rfl,
    listeners, hlisteners, rfl⟩
  · simp only [Parts.all, List.flatMap_def, List.append_assoc, access]
  · rw [List.forall₂_map_right_iff, List.forall₂_same]
    exact fun x _ => ⟨rfl, x.site_of_mem_writes⟩
  · exact hforall.imp fun x as has => ⟨has, Piece.on_of_collect (x.on_pieces ctx _) has⟩

end Entity

end Declaration

end MappingMetadata
