import MappingMetadata.Proofs.Declaration.Defaulting
import MappingMetadata.Proofs.Entity.Sources
import MappingMetadata.Proofs.Entity.Undefaulting
import MappingMetadata.Proofs.Session.Enrolling
import MappingMetadata.Proofs.Session.Replay
import MappingMetadata.Proofs.Session.Viewing

/-!
# What the defaults for schema, catalog and cascade touch

**Theorem (`document_defaults`).** Apply a document twice to the same index and registry, under
effective defaults that agree in package and access. Both runs report the same or fail for the same
cause, they leave the same registry, and indexes that look the same undefaulted. What is new among
the tables and associations in the index is made from the declarations of the document, and it
states a schema, a catalog and a cascade as these declare them and as the defaults complete them.

The first part follows from entities and indexes that look alike. For the second, an annotation in
the index was there before or was written by an entity. A join table in an override may be carried
over from one entity of the document to the next, so the induction goes over the entities and keeps
track of all that can be carried over (`table_of_mem_writesAll`).
-/

namespace MappingMetadata

open Declaration Override

namespace Session

/-- The session with other defaults. -/
def withDefaults (s : Session) (d : Defaults) : Session :=
  { s with settings := { s.settings with defaults := d } }

/-! ## Where tables and associations are from -/

/-- The annotation was there before, or is access. -/
theorem mem_toList_enrolledAll {d : Defaults} {es : List Entity} {ix : Index} {a : Annotation}
    (h : a ∈ (enrolledAll d es ix).toList) : a.kind = .access ∨ a ∈ ix.toList := by
  obtain ⟨c, k, ha⟩ := (Index.mem_toList_iff _ a).1 h
  rw [ofKind_enrolledAll] at ha
  rcases Index.mem_toList_writeAll (Index.mem_toList_of_mem_ofKind ha) with ha | ha
  · obtain ⟨e, -, ha⟩ := List.mem_flatMap.1 ha
    obtain ⟨access, -, rfl⟩ := Option.map_eq_some_iff.1 (Option.mem_toList.1 ha)
    exact Or.inl rfl
  · exact Or.inr ha

/-- Join tables in the overrides that entities write are declared by one of them, or could be
carried over from the index. -/
theorem table_of_mem_writesAll {ctx : Context} {es : List Entity} {ix : Index}
    {as : List Annotation} (h : writesAll ctx es ix = .ok as) {a : Annotation} (ha : a ∈ as)
    (hkind : a.kind.slot = .associationOverride) {v : Value} (hv : StatesTable a v) :
    (∃ e ∈ es, ∃ o ∈ e.allAssociationOverrides, Tabled ctx.defaults o v) ∨ CarriesTable ix v := by
  induction es generalizing ix as with
  | nil =>
    cases h
    cases ha
  | cons e es ih =>
    obtain ⟨bs, rest, hbs, hrest, rfl⟩ := writesAll_cons_eq_ok_iff.1 h
    have hown : ∀ b ∈ bs, b.kind.slot = .associationOverride → StatesTable b v →
        (∃ e' ∈ e :: es, ∃ o ∈ e'.allAssociationOverrides, Tabled ctx.defaults o v) ∨
          CarriesTable ix v := fun b hb hk hv =>
      (Entity.table_of_mem_writes hbs hb hk hv).imp_left fun ho => ⟨e, List.mem_cons_self, ho⟩
    rcases List.mem_append.1 ha with ha | ha
    · exact hown a ha hkind hv
    · rcases ih hrest ha with ⟨e', he', ho⟩ | hcarries
      · exact Or.inl ⟨e', List.mem_cons_of_mem _ he', ho⟩
      · rcases carriesTable_writeAll hcarries with ⟨b, hb, hk, hb'⟩ | hcarries
        · exact hown b hb hk hb'
        · exact Or.inr hcarries

/-- Tables and associations in an index that were not in another one are made from declarations of
a document, and state what these declare, completed by defaults. -/
structure Completed (d : Defaults) (es : List Entity) (before after : Index) : Prop where
  /-- A join table of the index is that of a declared association. -/
  joinTable : ∀ a ∈ after.toList, a.kind = .joinTable → a ∈ before.toList ∨
    ∃ e ∈ es, ∃ x ∈ e.associations, ∃ t site, x.joinTable = some t ∧ a = t.annotation d site ∧
      a.Located t.catalog t.schema d
  collectionTable : ∀ a ∈ after.toList, a.kind = .collectionTable → a ∈ before.toList ∨
    ∃ e ∈ es, ∃ x ∈ e.associations, ∃ t site, x.collectionTable = some t ∧
      a = t.annotation d site ∧ a.Located t.catalog t.schema d
  association : ∀ a ∈ after.toList, ∀ type : Association, a.kind = type.kind →
    a ∈ before.toList ∨ ∃ e ∈ es, ∃ x ∈ e.associations, ∃ target site,
      x.associationType = some type ∧ a = .ofEntries type.kind site (x.entries d target) ∧
        a.Cascading x.cascade d
  /-- A join table in association overrides, alone or in a wrapper, is that of a declared override,
  or it was carried over from overrides that were there before. -/
  override : ∀ a ∈ after.toList, a.kind.slot = .associationOverride →
    ∀ v, StatesTable a v → a ∈ before.toList ∨ CarriesTable before v ∨
      ∃ e ∈ es, ∃ o ∈ e.allAssociationOverrides, ∃ t b, o.joinTable = some t ∧ v = .nested b ∧
        b = t.annotation d none ∧ b.Located t.catalog t.schema d

theorem completed_refl (d : Defaults) (es : List Entity) (ix : Index) : Completed d es ix ix where
  joinTable _ ha _ := Or.inl ha
  collectionTable _ ha _ := Or.inl ha
  association _ ha _ _ := Or.inl ha
  override _ ha _ _ _ := Or.inl ha

theorem completed_of_stage {s : Session} {d : Defaults} {es : List Entity} {n : Nat} {ix : Index}
    (h : s.stage d es = .ok (n, ix)) : Completed d es s.index ix := by
  obtain ⟨-, as, has, -, rfl⟩ := stage_eq_ok_iff.1 h
  have hmem : ∀ a ∈ ((enrolledAll d es s.index).writeAll as).toList,
      a.kind ≠ .access → a ∈ s.index.toList ∨ a ∈ as := by
    intro a ha hk
    rcases Index.mem_toList_writeAll ha with ha | ha
    · exact Or.inr ha
    · exact Or.inl ((mem_toList_enrolledAll ha).resolve_left hk)
  have haccounted : ∀ a ∈ ((enrolledAll d es s.index).writeAll as).toList, a.kind ≠ .access →
      a ∈ s.index.toList ∨ ∃ e ∈ es, Accounted d e.associations a := by
    refine fun a ha hk => (hmem a ha hk).imp_right fun ha => ?_
    obtain ⟨e, he, jx, bs, hbs, ha⟩ := (exists_of_mem_writesAll has).2 a ha
    exact ⟨e, he, Entity.accounted_of_mem_writes hbs ha⟩
  constructor
  · intro a ha hk
    refine (haccounted a ha (hk ▸ by decide)).imp_right fun ⟨e, he, hae⟩ => ?_
    obtain ⟨x, hx, t, site, ht, rfl⟩ := hae.joinTable hk
    exact ⟨e, he, x, hx, t, site, ht, rfl, t.located_annotation d site⟩
  · intro a ha hk
    refine (haccounted a ha (hk ▸ by decide)).imp_right fun ⟨e, he, hae⟩ => ?_
    obtain ⟨x, hx, t, site, ht, rfl⟩ := hae.collectionTable hk
    exact ⟨e, he, x, hx, t, site, ht, rfl, t.located_annotation d site⟩
  · intro a ha type hk
    have hne : type.kind ≠ .access := by cases type <;> decide
    refine (haccounted a ha (hk ▸ hne)).imp_right fun ⟨e, he, hae⟩ => ?_
    obtain ⟨x, hx, target, site, htype, rfl⟩ := hae.association type hk
    exact ⟨e, he, x, hx, target, site, htype, rfl, x.cascading_ofEntries d _ _ _⟩
  · intro a ha hk v hv
    have hne : a.kind ≠ .access := by
      intro haccess
      rw [haccess] at hk
      cases hk
    refine (hmem a ha hne).imp_right fun ha => ?_
    rcases table_of_mem_writesAll has ha hk hv with ⟨e, he, o, ho, t, ht, rfl⟩ | ⟨site, hsite⟩
    · exact Or.inr ⟨e, he, o, ho, t, _, ht, rfl, rfl, t.located_annotation d none⟩
    · rw [indexed_enrolledAll] at hsite
      exact Or.inl ⟨site, hsite⟩

/-- Whatever a document does, tables and associations that are new are completed. -/
theorem completed_document (s : Session) (doc : Document) :
    Completed (s.defaultsFor doc) doc.entities s.index (s.step (.document doc)).2.index := by
  rw [step_document]
  cases doc.globals.build s.classPath (s.defaultsFor doc) with
  | error err => exact completed_refl _ _ _
  | ok built =>
    dsimp only
    cases hstage : s.stage (s.defaultsFor doc) doc.entities with
    | error err => exact completed_refl _ _ _
    | ok p => exact completed_of_stage hstage

/-- **What the defaults for schema, catalog and cascade touch.** -/
theorem document_defaults (s : Session) (doc : Document) (d e : Defaults)
    (hpackage : (s.defaultsFor doc).package =
      ((s.withDefaults d).defaultsFor { doc with defaults := e }).package)
    (haccess : (s.defaultsFor doc).access =
      ((s.withDefaults d).defaultsFor { doc with defaults := e }).access) :
    let s' := s.withDefaults d
    let doc' := { doc with defaults := e }
    let done := s.step (.document doc)
    let done' := s'.step (.document doc')
    done.1 = done'.1 ∧ done.2.LooksAlike Annotation.undefaulted done'.2 ∧
      Completed (s.defaultsFor doc) doc.entities s.index done.2.index ∧
      Completed (s'.defaultsFor doc') doc.entities s.index done'.2.index := by
  intro s' doc' done done'
  have hagrees : (s.context (s.defaultsFor doc)).defaults.Agrees
      (s'.context (s'.defaultsFor doc')).defaults := ⟨hpackage, haccess⟩
  have hfaithful : (s.context (s.defaultsFor doc)).Faithful Annotation.undefaulted
      (s'.context (s'.defaultsFor doc')) :=
    { view := Annotation.view_undefaulted
      carries := carries_undefaulted _ _
      dedupe := rfl
      access := haccess }
  have hpath : (s.context (s.defaultsFor doc)).classPath =
      (s'.context (s'.defaultsFor doc')).classPath := rfl
  have halike : s.LooksAlike Annotation.undefaulted s' := ⟨rfl, rfl⟩
  obtain ⟨houtcome, hdone⟩ := document_alike hfaithful
    (doc.globals.build_congr s.classPath hpackage)
    (List.forall₂_same.2 fun e _ => Entity.alike_of_agrees hpath hagrees e) halike
  exact ⟨houtcome, hdone, s.completed_document doc, s'.completed_document doc'⟩

/-- A join table that declares its catalog, one nested in an override that declares nothing, and a
cascade; once under a default schema with `PERSIST`, once under a default catalog without. -/
theorem defaults_touch_three_fields :
    let items : AssociationAttribute := {
      name := "items", associationType := some .oneToMany, cascade := [.merge]
      joinTable := some { name := some "ORDER_ITEM", catalog := some "own" } }
    let doc : Document := {
      defaults := { schema := some "sales", cascadePersist := some true }
      entities := [{
        className := "Order", associations := [items],
        associationOverrides := [{ name := "address", joinTable := some { name := some "A" } }] }]
      globals := { tableGenerators := [{ name := some "ids" }] } }
    let s := start {}
    let s' := s.withDefaults { catalog := some "store" }
    let doc' := { doc with defaults := {} }
    let done := s.step (.document doc)
    let done' := s'.step (.document doc')
    let locations := fun (s : Session) =>
      (s.index.toList.flatMap fun a => a :: a.inner).map fun a =>
        (a.kind, a.string? "catalog", a.string? "schema",
          ((a.field? "cascade").bind Value.names?).getD [])
    ((s.defaultsFor doc).package = (s'.defaultsFor doc').package ∧
        (s.defaultsFor doc).access = (s'.defaultsFor doc').access) ∧
      (done.1 = .ok (.report ⟨1, 3, 1⟩) ∧
        locations done.2 = [(.associationOverride, none, none, []),
          (.joinTable, none, some "sales", []), (.oneToMany, none, none, ["MERGE", "PERSIST"]),
          (.joinTable, some "own", some "sales", [])] ∧
        locations done'.2 = [(.associationOverride, none, none, []),
          (.joinTable, some "store", none, []), (.oneToMany, none, none, ["MERGE"]),
          (.joinTable, some "own", none, [])]) ∧
      done.1 = done'.1 ∧ done.2.LooksAlike Annotation.undefaulted done'.2 ∧
      Completed (s.defaultsFor doc) doc.entities s.index done.2.index ∧
      Completed (s'.defaultsFor doc') doc.entities s.index done'.2.index := by
  intro items doc s s' doc' done done' locations
  exact ⟨⟨by decide +kernel, by decide +kernel⟩,
    ⟨by decide +kernel, by decide +kernel, by decide +kernel⟩,
    document_defaults s doc { catalog := some "store" } {} (by decide +kernel) (by decide +kernel)⟩

end Session

end MappingMetadata
