import MappingMetadata.Proofs.Entity.Placement
import MappingMetadata.Proofs.Index.Confinement
import MappingMetadata.Proofs.Index.Superseding

/-!
# What processing an entity does to the index

What an entity writes is determined by what can fail: the classes looked up and the overrides
merged. They are kept in an `Emission`; the rest is read off the declaration. Since all of it is
made before the first write, the index enters only through the access type of the class and the
overrides to be merged.

**Theorem (`process_effect`).** When an entity is processed successfully, everything in its
emission is written, in order. Each list of the index keeps what no write supersedes and gains the
writes that no later one supersedes; no other class is changed than that of the entity and those
of the callbacks.

That later writes supersede earlier ones happens when attributes repeat a name or share a getter,
and when the class is its own listener.
-/

namespace MappingMetadata

open Override

/-! ## Collecting, equation by equation -/

namespace Piece

variable {ctx : Context} {ix : Index} {as : List Annotation}

theorem collect_fixed_cons {o : Outcome (List Annotation)} {ps : List Piece} :
    collect ctx ix (fixed o :: ps) = .ok as ↔
      ∃ bs rest, o = .ok bs ∧ collect ctx ix ps = .ok rest ∧ as = bs ++ rest :=
  collect_cons_eq_ok_iff

theorem collect_plain_cons {bs : List Annotation} {ps : List Piece} :
    collect ctx ix (plain bs :: ps) = .ok as ↔
      ∃ rest, collect ctx ix ps = .ok rest ∧ as = bs ++ rest := by
  rw [collect_cons_eq_ok_iff]
  constructor
  · rintro ⟨_, rest, hbs, hrest, rfl⟩
    cases hbs
    exact ⟨rest, hrest, rfl⟩
  · rintro ⟨rest, hrest, rfl⟩
    exact ⟨bs, rest, rfl, hrest, rfl⟩

theorem collect_overrides_cons {f : Family} {declared : List f.Declared} {site : Site}
    {ps : List Piece} :
    collect ctx ix (overrides f declared site :: ps) = .ok as ↔
      ∃ m rest, mergedAnnotation f ix ctx.defaults ctx.dedupe declared (some site) = .ok m ∧
        collect ctx ix ps = .ok rest ∧ as = m.toList ++ rest := by
  rw [collect_cons_eq_ok_iff]
  simp only [annotations, Context.overrides, Outcome.map_eq_ok_iff]
  constructor
  · rintro ⟨_, rest, ⟨m, hm, rfl⟩, hrest, rfl⟩
    exact ⟨m, rest, hm, hrest, rfl⟩
  · rintro ⟨m, rest, hm, hrest, rfl⟩
    exact ⟨_, rest, ⟨m, hm, rfl⟩, hrest, rfl⟩

theorem collect_nil_eq_ok_iff : collect ctx ix [] = .ok as ↔ as = [] := by
  rw [collect, Except.ok.injEq, eq_comm]

theorem collect_flatMap_eq_ok_iff {α : Type} {f : α → List Piece} {xs : List α} :
    collect ctx ix (xs.flatMap f) = .ok as ↔
      ∃ ass, List.Forall₂ (fun x bs => collect ctx ix (f x) = .ok bs) xs ass ∧
        as = ass.flatten := by
  refine ⟨collect_flatMap, ?_⟩
  rintro ⟨ass, hass, rfl⟩
  induction hass with
  | nil => rfl
  | cons hbs _ ih =>
    rw [List.flatMap_cons, List.flatten_cons]
    exact collect_append_eq_ok_iff.2 ⟨_, _, hbs, ih, rfl⟩

end Piece

namespace Declaration

/-! ## What an association writes -/

/-- What an association writes to its site: what it states, its columns and tables, and its
overrides as merged with those of the index. -/
def AssociationAttribute.Writes (x : AssociationAttribute) (ctx : Context) (ix : Index)
    (site : Site) (as : List Annotation) : Prop :=
  ∃ stated ofAttributes ofAssociations : Option Annotation,
    x.annotation ctx.classPath ctx.defaults site = .ok stated ∧
    mergedAnnotation .attributes ix ctx.defaults ctx.dedupe x.attributeOverrides (some site) =
      .ok ofAttributes ∧
    mergedAnnotation .associations ix ctx.defaults ctx.dedupe x.associationOverrides (some site) =
      .ok ofAssociations ∧
    as = stated.toList ++ (JoinColumn.listAnnotation x.joinColumns (some site)).toList ++
      (x.joinTable.map fun t => t.annotation ctx.defaults (some site)).toList ++
      (x.collectionTable.map fun t => t.annotation ctx.defaults (some site)).toList ++
      (x.orderColumn.map fun c => c.annotation (some site)).toList ++
      ofAttributes.toList ++ ofAssociations.toList

theorem AssociationAttribute.collect_pieces_eq_ok_iff {x : AssociationAttribute} {ctx : Context}
    {ix : Index} {site : Site} {as : List Annotation} :
    Piece.collect ctx ix (x.pieces ctx site) = .ok as ↔ x.Writes ctx ix site as := by
  unfold pieces Writes
  simp only [Piece.collect_fixed_cons, Piece.collect_plain_cons, Piece.collect_overrides_cons,
    Piece.collect_nil_eq_ok_iff, Outcome.map_eq_ok_iff, existsAndEq, true_and, and_assoc,
    ← exists_and_right, List.append_assoc, List.append_nil]

namespace Entity

/-! ## What an entity writes -/

/-- Looked up and merged for an entity: all in its writes that can fail. -/
structure Emission where
  idClass : Option String
  attributeOverrides : Option Annotation
  associationOverrides : Option Annotation
  /-- What is written for each association. -/
  associations : List (List Annotation)
  /-- The class of each listener. -/
  listeners : List String

namespace Emission

/-- The emission is that of an entity, made against an index. -/
structure Of (m : Emission) (e : Entity) (ctx : Context) (className : String) (ix : Index) :
    Prop where
  idClass : ctx.resolve? e.idClass "id class" = .ok m.idClass
  attributeOverrides : mergedAnnotation .attributes ix ctx.defaults ctx.dedupe
    e.attributeOverrides (some (.onClass className)) = .ok m.attributeOverrides
  associationOverrides : mergedAnnotation .associations ix ctx.defaults ctx.dedupe
    e.associationOverrides (some (.onClass className)) = .ok m.associationOverrides
  associations : List.Forall₂ (fun (x : AssociationAttribute) as =>
      let access := e.accessUnder (ctx.access? ix className)
      x.Writes ctx ix (access.site className x.name) as) e.associations m.associations
  listeners : List.Forall₂ (fun (l : Listener) c => l.resolve ctx className = .ok c)
    e.entityListeners m.listeners

/-- Everything that the entity writes, in order: for its class, for its basic attributes, its
associations and its transient attributes, and for the events of its listeners and its own. -/
def writes (m : Emission) (e : Entity) (className : String) (ofClass : Option Access) :
    List Annotation :=
  let site := Site.onClass className
  let access := e.accessUnder ofClass
  ((e.inheritedAccess ofClass).map fun a => a.annotation className).toList ++
  (if e.excludeDefaultListeners then [.marker .excludeDefaultListeners (some site)] else []) ++
  (if e.excludeSuperclassListeners then [.marker .excludeSuperclassListeners (some site)]
    else []) ++
  (m.idClass.map fun c =>
    .ofEntries .idClass (some site) [("value", .classRef (some c))]).toList ++
  m.attributeOverrides.toList ++
  m.associationOverrides.toList ++
  (PrimaryKeyJoinColumn.listAnnotation e.primaryKeyJoinColumns (some site)).toList ++
  (e.basicAttributes.flatMap fun x => x.writes (access.site className x.name)) ++
  m.associations.flatten ++
  (e.transientAttributes.map fun name => .marker .transient (some (.onField className name))) ++
  (if e.entityListeners.isEmpty then []
    else .ofEntries .entityListeners (some site) [("value", .classRefs m.listeners)] ::
      (e.entityListeners.zip m.listeners).flatMap fun p => p.1.callbacks.writes p.2) ++
  e.callbacks.writes className

end Emission

variable {e : Entity} {ctx : Context} {className : String} {ix : Index}

theorem idClassWrites_eq_ok_iff {as : List Annotation} :
    e.idClassWrites ctx className = .ok as ↔
      ∃ idClass, ctx.resolve? e.idClass "id class" = .ok idClass ∧
        as = (idClass.map fun c => .ofEntries .idClass (some (.onClass className))
          [("value", .classRef (some c))]).toList := by
  rw [idClassWrites, Outcome.bind_eq_ok_iff]
  refine exists_congr fun idClass => and_congr_right fun _ => ?_
  rw [eq_comm]
  exact Iff.of_eq (Except.ok.injEq _ _)

theorem listenerWrites_eq_ok_iff {as : List Annotation} :
    e.listenerWrites ctx className = .ok as ↔
      ∃ classes, List.Forall₂ (fun (l : Listener) c => l.resolve ctx className = .ok c)
          e.entityListeners classes ∧
        as = if e.entityListeners.isEmpty then [] else
          .ofEntries .entityListeners (some (.onClass className))
            [("value", .classRefs classes)] ::
          (e.entityListeners.zip classes).flatMap fun p => p.1.callbacks.writes p.2 := by
  rw [listenerWrites, Outcome.bind_eq_ok_iff]
  refine exists_congr fun classes => and_congr Outcome.mapM_eq_ok_iff ?_
  rw [eq_comm]
  split <;> exact Iff.of_eq (Except.ok.injEq _ _)

/-- **What an entity writes** is an emission of it, and nothing else keeps it from writing. -/
theorem writes_eq_ok_iff {ws : List Annotation} :
    e.writes ctx className ix = .ok ws ↔ ∃ m : Emission, m.Of e ctx className ix ∧
      ws = m.writes e className (ctx.access? ix className) := by
  rw [writes, pieces_eq, ownPieces]
  -- The pieces one by one; what each of them has written is then put into its place.
  simp only [List.cons_append, List.nil_append, Piece.collect_fixed_cons,
    Piece.collect_plain_cons, Piece.collect_overrides_cons, Piece.collect_append_eq_ok_iff,
    Piece.collect_flatMap_eq_ok_iff, Piece.collect_nil_eq_ok_iff, idClassWrites_eq_ok_iff,
    listenerWrites_eq_ok_iff, AssociationAttribute.collect_pieces_eq_ok_iff, existsAndEq,
    true_and, and_assoc, ← exists_and_right]
  constructor
  · rintro ⟨c, m, n, ass, classes, hc, hm, hn, hass, hclasses, rfl⟩
    exact ⟨⟨c, m, n, ass, classes⟩, ⟨hc, hm, hn, hass, hclasses⟩,
      by simp only [Emission.writes, List.append_assoc, List.append_nil]⟩
  · rintro ⟨m, h, rfl⟩
    exact ⟨m.idClass, m.attributeOverrides, m.associationOverrides, m.associations, m.listeners,
      h.idClass, h.attributeOverrides, h.associationOverrides, h.associations, h.listeners,
      by simp only [Emission.writes, List.append_assoc, List.append_nil]⟩

/-! ## What becomes of the index -/

/-- What has become of an index into which an entity has written, counting the writes. -/
structure Effect (className : String) (ws : List Annotation) (ix : Index) (n : Nat)
    (ix' : Index) : Prop where
  count : n = ws.length
  /-- What no write supersedes stays in its order, and the writes follow that last. -/
  lists : ∀ c k, ix'.ofKind c k =
    ((ix.ofKind c k).filter fun a => ¬ ∃ w ∈ ws, w.Supersedes k a.site) ++
      (Index.unsuperseded ws).filter fun w => w.site.map Site.className = some c ∧ w.kind = k
  /-- The entries of other classes are kept as they are, and none is added. -/
  entries : ∀ c, c ≠ className →
    (∀ w ∈ ws, w.kind.isCallback → w.site.map Site.className ≠ some c) →
      ix'.entry? c = ix.entry? c
  complete : ∀ c, ix'.isComplete c = ix.isComplete c
  /-- So the next entity finds a filed index again. -/
  filed : ix'.Filed

/-- **What processing an entity does to the index.** Everything in an emission of the entity is
written, and this is all that happens. -/
theorem process_effect {owner : Option String} {n : Nat} {ix' : Index} (hfiled : ix.Filed)
    (h : (e.process ctx owner).run ix = .ok n ix') :
    ∃ className, owner = some className ∧ ∃ m : Emission, m.Of e ctx className ix ∧
      Effect className (m.writes e className (ctx.access? ix className)) ix n ix' := by
  cases owner with
  | none => cases h
  | some className =>
    obtain ⟨ws, hws, rfl, rfl⟩ := run_process_eq_ok_iff.1 h
    obtain ⟨p, hp, hplaced⟩ := exists_placed hws
    obtain ⟨m, hm, rfl⟩ := writes_eq_ok_iff.1 hws
    refine ⟨className, rfl, m, hm, rfl, hfiled.ofKind_writeAll _, ?_,
      ix.isComplete_writeAll _, hfiled.writeAll _⟩
    -- A write to another class than that of the entity is a callback.
    intro c hc hcallbacks
    refine Index.entry?_writeAll_of_ne fun w hw hwc => ?_
    obtain ⟨site, hsite, hclass | ⟨hkind, -⟩⟩ := hplaced.exists_site (hp ▸ hw)
    · rw [hsite, Option.map_some, Option.some.injEq] at hwc
      exact hc (hwc.symm.trans hclass)
    · exact hcallbacks w hw hkind hwc

/-- The class is its own listener, and two attributes have one name: the later column and the
callback of the class itself supersede the earlier ones, and a column of the index. -/
theorem process_effect_own_listener :
    let check : Callbacks := { prePersist := some "check" }
    let e : Entity := {
      className := "Order"
      basicAttributes := [{ name := "zip", column := some { name := some "A" } },
        { name := "zip", column := some { name := some "B" } }]
      entityListeners := [{ className := "Order", callbacks := check },
        { className := "Audit", callbacks := { postLoad := some "loaded" } }]
      callbacks := check }
    let ctx : Context := { defaults := {}, classPath := .everything }
    let column := fun name (site : Site) => Column.annotation { name := some name } (some site)
    let ix : Index := .ofList [column "C" (.onField "Order" "zip"),
      column "D" (.onField "Order" "city"), column "E" (.onField "Item" "zip")]
    ∃ (m : Emission) (ix' : Index), (e.process ctx (some "Order")).run ix = .ok 6 ix' ∧
      m.Of e ctx "Order" ix ∧
      Effect "Order" (m.writes e "Order" none) ix 6 ix' ∧
      (ix'.ofKind "Order" .column).map (fun a => a.string? "name") = [some "D", some "B"] ∧
      (ix'.ofKind "Order" .prePersist).map Annotation.site =
        [some (.onMethod "Order" "check")] := by
  intro check e ctx column ix
  have hlisteners : e.entityListeners.mapM (fun l => l.resolve ctx "Order") =
      .ok ["Order", "Audit"] := by decide +kernel
  have hmade : Emission.Of ⟨none, none, none, [], ["Order", "Audit"]⟩ e ctx "Order" ix :=
    ⟨rfl, rfl, rfl, .nil, Outcome.mapM_eq_ok_iff.1 hlisteners⟩
  have hwrites := writes_eq_ok_iff.2 ⟨_, hmade, rfl⟩
  have hrun : (e.process ctx (some "Order")).run ix = .ok 6 _ :=
    run_process_eq_ok_iff.2 ⟨_, hwrites, by decide +kernel, rfl⟩
  obtain ⟨_, howner, m, hm, heffect⟩ := process_effect (Index.filed_ofList _) hrun
  cases howner
  exact ⟨m, _, hrun, hm, heffect, by decide +kernel, by decide +kernel⟩

end Entity

end Declaration

end MappingMetadata
