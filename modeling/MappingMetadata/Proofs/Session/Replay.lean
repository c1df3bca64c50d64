import MappingMetadata.Proofs.Globals.Registrations
import MappingMetadata.Proofs.Session.Canonical
import MappingMetadata.Proofs.Session.Retracing

/-!
# Applying a document again

**Theorem (`document_replay`).** When a document has been applied, applying it again succeeds with
the same report and changes nothing: no list of the index, not even its order, no class, no flag,
and nothing in the registry.

An override whose name is the empty text would be left out of its own annotation, and could not be
carried over the second time. So no such override may stand in the index where the document
declares overrides.

The second run does not simply repeat the first. It merges overrides with what the first run has
left, so in between its index may differ. But it goes to the same places and ends each of them with
the same annotation (`retraces_writesAll`), and so moves every annotation back to where it was
(`Index.ofKind_retrace`).
-/

namespace MappingMetadata.Session

open Declaration Override

/-- The entities of a document declare overrides for a site. Which sites their attributes have
depends on the access types in the index in which all of them are enrolled. -/
def Declares (s : Session) (d : Defaults) (es : List Entity) (f : Family) (site : Site) : Prop :=
  ∃ e ∈ es, ∃ declared ≠ [], Piece.overrides f declared site ∈
    e.piecesUnder (s.context d) ((s.context d).access? (enrolledAll d es s.index))

/-- No override in the index has the empty name where the entities declare overrides. -/
def NamedWhereDeclared (s : Session) (d : Defaults) (es : List Entity) : Prop :=
  ∀ f site, s.Declares d es f site → ∀ a ∈ indexed s.index f site, a.name? ≠ some ""

theorem declares_of_anyDeclared {s : Session} {d : Defaults} {es : List Entity} {f : Family}
    {site : Site} (h : AnyDeclared (s.context d)
      ((s.context d).access? (enrolledAll d es s.index)) f site es) : s.Declares d es f site := by
  obtain ⟨e, he, hne⟩ := h
  rw [Ne, Piece.lastDeclared_eq_nil_iff] at hne
  push Not at hne
  obtain ⟨p, hp, hdecl⟩ := hne
  exact ⟨e, he, p.declaredFor f site, hdecl, Piece.eq_overrides_of_declaredFor hdecl ▸ hp⟩

/-- Enrolling leaves all overrides as they are. -/
theorem indexed_enrolledAll (d : Defaults) (es : List Entity) (ix : Index) (f : Family)
    (site : Site) : indexed (enrolledAll d es ix) f site = indexed ix f site := by
  rw [Index.indexed_congr (ofKind_enrolledAll d es ix site.className)]
  refine indexed_writeAll_of_not_occupies ix fun a ha ho => ?_
  obtain ⟨e, -, ha⟩ := List.mem_flatMap.1 ha
  obtain ⟨access, -, rfl⟩ := Option.map_eq_some_iff.1 (Option.mem_toList.1 ha)
  exact Kind.slot_ne_scalar rfl f ho.2

/-- Enrolling the same entities again leaves the access types of all classes as they are. -/
theorem access?_enrolledAll_again {ctx : Context} {es : List Entity} {ix ix' : Index}
    (h : ∀ c, ctx.access? ix' c = ctx.access? (enrolledAll ctx.defaults es ix) c) (c : String) :
    ctx.access? (enrolledAll ctx.defaults es ix') c =
      ctx.access? (enrolledAll ctx.defaults es ix) c := by
  have hc := h c
  unfold Context.access? at hc ⊢
  rw [access?_enrolledAll, access?_enrolledAll, Option.or_assoc, Option.or_assoc]
  rw [access?_enrolledAll, Option.or_assoc] at hc
  rw [hc, ← Option.or_assoc, Option.or_self]

/-- Staging the same entities again, on what the first time has left. -/
theorem stage_replay {s s' : Session} {d : Defaults} {es : List Entity} {n : Nat}
    (h : s.stage d es = .ok (n, s'.index)) (hctx : s'.context d = s.context d)
    (hnames : s.NamedWhereDeclared d es) :
    ∃ ix, s'.stage d es = .ok (n, ix) ∧
      (∀ c k, ix.ofKind c k = s'.index.ofKind c k) ∧
      ix.classes.keys = s'.index.classes.keys ∧
      ∀ c, ix.isComplete c = s'.index.isComplete c := by
  obtain ⟨hclasses, as, has, rfl, hindex⟩ := stage_eq_ok_iff.1 h
  -- The access types of the classes are the same whenever an entity is processed.
  have hleft : ∀ c, (s.context d).access? s'.index c =
      (s.context d).access? (enrolledAll d es s.index) c := by
    intro c
    rw [hindex]
    exact access?_writesAll has c
  have hagain : ∀ c, (s.context d).access? (enrolledAll d es s'.index) c =
      (s.context d).access? (enrolledAll d es s.index) c :=
    access?_enrolledAll_again hleft
  -- The second run starts from what the merges of the first have left.
  have halike : ∀ f site, AnyDeclared (s.context d)
      ((s.context d).access? (enrolledAll d es s.index)) f site es →
        AlikeBut (takenNames (s.context d) ((s.context d).access? (enrolledAll d es s.index))
          f site es) (enrolledAll d es s.index) (enrolledAll d es s'.index) f site := by
    intro f site hany
    obtain ⟨⟨x, hx⟩, -⟩ := exists_carried_of_anyDeclared (fun _ => rfl) has hany
    have hx : Held (enrolledAll d es s.index) f site x := by
      refine held_of_carried hx ?_
      rw [indexed_enrolledAll]
      exact hnames f site (declares_of_anyDeclared hany)
    have hy := held_writesAll (fun _ => rfl) has hx
    rw [← hindex] at hy
    exact ⟨x, _, hx, hy.congr (indexed_enrolledAll d es s'.index f site),
      (fresh_mergeAll _ _ (fun _ hn => hn) x).symm⟩
  obtain ⟨bs, hbs, hretrace⟩ := retraces_writesAll (fun _ => rfl) hagain has halike
  refine ⟨(enrolledAll d es s'.index).writeAll bs, ?_, ?_, ?_, ?_⟩
  · refine stage_eq_ok_iff.2 ⟨hclasses, bs, ?_, hretrace.length_eq.symm, rfl⟩
    rw [hctx]
    exact hbs
  · intro c k
    have hwhole : ∀ c k, s'.index.ofKind c k =
        (s.index.writeAll (accessWrites d es ++ as)).ofKind c k := by
      intro c k
      rw [hindex, Index.writeAll_append]
      exact Index.ofKind_writeAll_congr (ofKind_enrolledAll d es s.index c k) as
    calc ((enrolledAll d es s'.index).writeAll bs).ofKind c k
        = (s'.index.writeAll (accessWrites d es ++ bs)).ofKind c k := by
          rw [Index.writeAll_append]
          exact Index.ofKind_writeAll_congr (ofKind_enrolledAll d es s'.index c k) bs
      _ = ((s.index.writeAll (accessWrites d es ++ as)).writeAll
            (accessWrites d es ++ bs)).ofKind c k :=
          Index.ofKind_writeAll_congr (hwhole c k) _
      _ = (s.index.writeAll (accessWrites d es ++ as)).ofKind c k :=
          Index.ofKind_retrace (hretrace.append_left _) s.index c k
      _ = s'.index.ofKind c k := (hwhole c k).symm
  · have hknown : ∀ e ∈ es, d.qualify e.className ∈ s'.index.classes.keys := by
      intro e he
      rw [hindex]
      exact (Index.keys_prefix_writeAll _ as).subset
        ((mem_keys_enrolledAll_iff d es s.index _).2 (Or.inr ⟨e, he, rfl⟩))
    have henrolled := keys_enrolledAll_of_mem d hknown
    rw [Index.keys_writeAll_of_mem, henrolled]
    intro b hb site hsite
    obtain ⟨a, ha, hab⟩ := hretrace.exists_site hb
    rw [henrolled, hindex]
    exact (Index.mem_keys_writeAll_iff ..).2
      (Or.inr ⟨a, ha, by rw [hab, hsite, Option.map_some]⟩)
  · intro c
    have hflags : s'.index.isComplete c = (s.index.isComplete c ||
        es.any fun e => e.metadataComplete && decide (d.qualify e.className = c)) := by
      rw [hindex, Index.isComplete_writeAll, isComplete_enrolledAll]
    rw [Index.isComplete_writeAll, isComplete_enrolledAll, hflags, Bool.or_assoc, Bool.or_self]

/-- **Applying a document again changes nothing.** It succeeds with the same report and leaves the
lists of the index, its classes, its flags and the registry as they are. -/
theorem document_replay {s s' : Session} {doc : Document} {r : Report}
    (h : s.step (.document doc) = (.ok (.report r), s'))
    (hnames : s.NamedWhereDeclared (s.defaultsFor doc) doc.entities) :
    ∃ s'', s'.step (.document doc) = (.ok (.report r), s'') ∧
      (∀ c k, s''.index.ofKind c k = s'.index.ofKind c k) ∧
      s''.index.classes.keys = s'.index.classes.keys ∧
      (∀ c, s''.index.isComplete c = s'.index.isComplete c) ∧
      s''.globals = s'.globals := by
  have hstep := s.stepped (.document doc)
  rw [h] at hstep
  cases hstep with
  | @document _ built n ix hbuilt hstage =>
    let s₁ : Session := { s with index := ix, globals := s.globals.registerBuilt built }
    have hfirst : s.stage (s.defaultsFor doc) doc.entities = .ok (n, s₁.index) := hstage
    have hbuilt' : doc.globals.build s₁.classPath (s₁.defaultsFor doc) = .ok built := hbuilt
    obtain ⟨ix', hstage', hlists, hkeys, hflags⟩ := stage_replay hfirst rfl hnames
    refine ⟨{ s₁ with index := ix' }, ?_, hlists, hkeys, hflags, rfl⟩
    have hstage' : s₁.stage (s₁.defaultsFor doc) doc.entities = .ok (n, ix') := hstage'
    have hglobals : s₁.globals.registerBuilt built = s₁.globals :=
      Globals.registerBuilt_registerBuilt s.globals built
    rw [step_document, hbuilt']
    dsimp only
    rw [hstage']
    dsimp only
    rw [hglobals]

/-- A canonical index holds no override with an empty name, so documents may be applied again in
any session that has started with an empty index. -/
theorem namedWhereDeclared_of_canonical {s : Session} {dedupe : Bool}
    (hs : s.index.Canonical dedupe) (d : Defaults) (es : List Entity) :
    s.NamedWhereDeclared d es := by
  intro f site _ a ha hempty
  obtain ⟨-, n, hn, hblank⟩ := named_of_mem_indexed hs ha
  rw [hn, Option.some.injEq] at hempty
  rw [hempty] at hblank
  exact hblank Text.isBlank_empty

/-- Two entities of one class, each of which moves its own overrides to the front each time. -/
theorem document_replay_two_entities :
    let first : Document := { entities := [
      { className := "Order", attributeOverrides := [{ name := "country" }] }] }
    let doc : Document := { entities := [
      { className := "Order", attributeOverrides := [{ name := "street" }, { name := "city" }] },
      { className := "Order", attributeOverrides := [{ name := "zip" }] }] }
    let s := ((start {}).run [.document first]).2
    ∃ s' s'', s.step (.document doc) = (.ok (.report ⟨2, 2, 0⟩), s') ∧
      s'.step (.document doc) = (.ok (.report ⟨2, 2, 0⟩), s'') ∧
      ∀ c k, s''.index.ofKind c k = s'.index.ofKind c k := by
  intro first doc s
  have hreport : (s.step (.document doc)).1 = .ok (.report ⟨2, 2, 0⟩) := by decide +kernel
  have hs : s.index.Canonical true :=
    canonical_run (s := start {}) Index.canonical_empty [.document first]
  clear_value s
  cases hstep : s.step (.document doc) with
  | mk answer s' =>
    rw [hstep] at hreport
    dsimp only at hreport
    subst hreport
    obtain ⟨s'', hagain, hlists, -⟩ := document_replay hstep
      (namedWhereDeclared_of_canonical hs (s.defaultsFor doc) doc.entities)
    exact ⟨s', s'', rfl, hagain, hlists⟩

end MappingMetadata.Session
