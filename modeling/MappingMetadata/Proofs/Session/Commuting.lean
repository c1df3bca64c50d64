import MappingMetadata.Proofs.Globals.Names
import MappingMetadata.Proofs.Session.Appending

/-!
# Independent documents

A document touches the classes of its entities and of their listeners. What it does to a session is
its `Effect`: an answer, a change of the index and a list of registrations, or an error and no
change at all. The effect depends on the entries of the touched classes alone (`effect_congr`), and
changes these alone (`confined_effect`).

**Theorem (`documents_commute`).** Two documents that touch no class in common and declare no global
name in common can be applied in either order. Each gets the same answer, be it a report or an
error, and the sessions that are left differ only in the order of what is new.
-/

namespace MappingMetadata

/-- Indexes with equal entries agree. -/
theorem Index.agrees_of_entries {ix jx : Index} (h : ∀ c, ix.entry? c = jx.entry? c) :
    ix.Agrees jx where
  lists c k := ofKind_congr (h c) k
  classes _ := (keys_perm h).mem_iff
  complete c := by rw [isComplete, isComplete, h]

namespace Session

open Declaration

/-! ## What staging reads and touches -/

theorem confined_enrolledAll {d : Defaults} {es : List Entity} {cs : List String}
    (h : ∀ e ∈ es, d.qualify e.className ∈ cs) :
    Index.Confined cs fun ix => enrolledAll d es ix :=
  Index.confined_foldl fun e he =>
    (e.confined_enrolled d).mono fun _ hc => List.mem_singleton.1 hc ▸ h e he

/-- What is staged depends on the entries of the classes of the entities alone. -/
theorem stagedWrites_congr {ctx : Context} {es : List Entity} {ix ix' : Index}
    (h : ∀ e ∈ es, ix'.entry? (ctx.defaults.qualify e.className) =
      ix.entry? (ctx.defaults.qualify e.className)) :
    stagedWrites ctx es ix' = stagedWrites ctx es ix := by
  have hconfined : Index.Confined (es.map fun e => ctx.defaults.qualify e.className)
      fun ix => enrolledAll ctx.defaults es ix :=
    confined_enrolledAll fun e he => List.mem_map.2 ⟨e, he, rfl⟩
  unfold stagedWrites
  rw [writesAll_congr fun e he k => Index.ofKind_congr (hconfined.inside (h e he)) k]

/-! ## Effects -/

/-- What a document does to a session. -/
structure Effect where
  answer : Outcome Answer
  change : Index → Index
  built : List BuiltGlobal

/-- The session that an effect leaves. -/
def Effect.apply (f : Effect) (s : Session) : Session :=
  { s with index := f.change s.index, globals := s.globals.registerBuilt f.built }

/-- The effect of a document; one that fails changes nothing. -/
def effect (s : Session) (doc : Document) : Effect :=
  match doc.globals.build s.classPath (s.defaultsFor doc) with
  | .error e => ⟨.error e, id, []⟩
  | .ok built => match stagedWrites (s.context (s.defaultsFor doc)) doc.entities s.index with
    | .error e => ⟨.error e, id, []⟩
    | .ok as => ⟨.ok (.report ⟨doc.entities.length, as.length, built.length⟩),
        fun ix => (enrolledAll (s.defaultsFor doc) doc.entities ix).writeAll as, built⟩

/-- The classes that a document touches. -/
def touched (s : Session) (doc : Document) : List String :=
  doc.entities.flatMap fun e => e.touched (s.context (s.defaultsFor doc))

variable {s : Session} {doc : Document}

theorem step_document_effect (s : Session) (doc : Document) :
    s.step (.document doc) = ((s.effect doc).answer, (s.effect doc).apply s) := by
  rw [step_document, stage_eq, effect]
  cases doc.globals.build s.classPath (s.defaultsFor doc) with
  | error e => rfl
  | ok built =>
    cases stagedWrites (s.context (s.defaultsFor doc)) doc.entities s.index <;> rfl

/-- A document either changes nothing, or enrols its entities, writes what they write, and registers
what it builds. -/
theorem effect_cases (s : Session) (doc : Document) :
    (∃ e, s.effect doc = ⟨.error e, id, []⟩) ∨
      ∃ built as, doc.globals.build s.classPath (s.defaultsFor doc) = .ok built ∧
        writesAll (s.context (s.defaultsFor doc)) doc.entities
          (enrolledAll (s.defaultsFor doc) doc.entities s.index) = .ok as ∧
        s.effect doc = ⟨.ok (.report ⟨doc.entities.length, as.length, built.length⟩),
          fun ix => (enrolledAll (s.defaultsFor doc) doc.entities ix).writeAll as, built⟩ := by
  rw [effect]
  cases doc.globals.build s.classPath (s.defaultsFor doc) with
  | error e => exact Or.inl ⟨e, rfl⟩
  | ok built =>
    dsimp only
    cases has : stagedWrites (s.context (s.defaultsFor doc)) doc.entities s.index with
    | error e => exact Or.inl ⟨e, rfl⟩
    | ok as => exact Or.inr ⟨built, as, rfl, (stagedWrites_eq_ok_iff.1 has).2, rfl⟩

theorem mem_touched_of_mem {e : Entity} (he : e ∈ doc.entities) :
    (s.defaultsFor doc).qualify e.className ∈ s.touched doc :=
  List.mem_flatMap.2 ⟨e, he, Entity.mem_touched_iff.2 (Or.inl rfl)⟩

/-- **What a document does depends on the classes that it touches alone.** -/
theorem effect_congr {s' : Session} (hsettings : s'.settings = s.settings)
    (hpath : s'.classPath = s.classPath)
    (h : ∀ c ∈ s.touched doc, s'.index.entry? c = s.index.entry? c) :
    s'.effect doc = s.effect doc := by
  have hd : s'.defaultsFor doc = s.defaultsFor doc := defaultsFor_eq hsettings rfl
  have hctx : s'.context (s.defaultsFor doc) = s.context (s.defaultsFor doc) := by
    rw [context, context, hsettings, hpath]
  have hwrites : stagedWrites (s.context (s.defaultsFor doc)) doc.entities s'.index =
      stagedWrites (s.context (s.defaultsFor doc)) doc.entities s.index :=
    stagedWrites_congr fun e he => h _ (mem_touched_of_mem he)
  rw [effect, effect, hd, hpath, hctx, hwrites]

/-- **A document changes the classes that it touches alone.** -/
theorem confined_effect (s : Session) (doc : Document) :
    Index.Confined (s.touched doc) (s.effect doc).change := by
  obtain ⟨e, heffect⟩ | ⟨built, as, -, has, heffect⟩ := s.effect_cases doc
  · rw [heffect]
    exact Index.confined_id _
  · rw [heffect]
    exact (Index.confined_writeAll fun a ha site => className_mem_touched has ha).comp
      (confined_enrolledAll fun e he => mem_touched_of_mem he)

/-- A document enters its classes after those that are there already. -/
theorem keys_prefix_effect (s : Session) (doc : Document) (ix : Index) :
    ix.classes.keys <+: ((s.effect doc).change ix).classes.keys := by
  obtain ⟨e, heffect⟩ | ⟨built, as, -, -, heffect⟩ := s.effect_cases doc
  · rw [heffect]
    exact List.prefix_refl _
  · rw [heffect]
    exact (keys_prefix_enrolledAll _ doc.entities ix).trans (Index.keys_prefix_writeAll _ as)

/-- A document registers declarations under names that it declares. -/
theorem mem_names_of_effect {b : BuiltGlobal} (hb : b ∈ (s.effect doc).built) :
    (b.kind, b.name) ∈ doc.globals.names := by
  obtain ⟨e, heffect⟩ | ⟨built, as, hbuilt, -, heffect⟩ := s.effect_cases doc
  · rw [heffect] at hb
    cases hb
  · rw [heffect] at hb
    exact GlobalDeclarations.mem_names_of_build hbuilt b hb

/-! ## Either order -/

variable {first second : Document}

/-- After a document that touches other classes, a document does what it does without it. -/
theorem run_pair (h : (s.touched first).Disjoint (s.touched second)) :
    s.run [.document first, .document second] =
      ([(s.effect first).answer, (s.effect second).answer],
        (s.effect second).apply ((s.effect first).apply s)) := by
  -- The second document finds the classes that it touches as they were.
  have hsecond : ((s.effect first).apply s).effect second = s.effect second :=
    effect_congr rfl rfl fun c hc =>
      (s.confined_effect first).outside s.index c fun hfirst => h hfirst hc
  rw [run_cons, step_document_effect, run_cons]
  dsimp only
  rw [step_document_effect, hsecond]
  rfl

/-- Two sessions that have come from one hold the same. What may differ between them is the order of
the classes and names that are new. -/
structure SameSince (s one two : Session) : Prop where
  settings : one.settings = two.settings
  classPath : one.classPath = two.classPath
  index : one.index.Agrees two.index
  declarations : ∀ k name, one.globals.get? k name = two.globals.get? k name
  classes : one.index.classes.keys.Perm two.index.classes.keys
  names : ∀ k, (one.globals.names k).Perm (two.globals.names k)
  earlierClasses : s.index.classes.keys <+: one.index.classes.keys ∧
    s.index.classes.keys <+: two.index.classes.keys
  earlierNames : ∀ k, s.globals.names k <+: one.globals.names k ∧
    s.globals.names k <+: two.globals.names k

/-- The effects of independent documents can be had in either order. -/
theorem sameSince_apply (hclasses : (s.touched first).Disjoint (s.touched second))
    (hnames : first.globals.names.Disjoint second.globals.names) :
    SameSince s ((s.effect second).apply ((s.effect first).apply s))
      ((s.effect first).apply ((s.effect second).apply s)) := by
  have hentries := (s.confined_effect second).comm (s.confined_effect first)
    (List.disjoint_symm hclasses) s.index
  have hapart : ∀ b ∈ (s.effect first).built, ∀ c ∈ (s.effect second).built,
      (b.kind, b.name) ≠ (c.kind, c.name) := fun b hb c hc hbc =>
    hnames (mem_names_of_effect hb) (hbc ▸ mem_names_of_effect hc)
  have hdeclarations := Globals.get?_registerBuilt_comm s.globals hapart
  exact {
    settings := rfl
    classPath := rfl
    index := Index.agrees_of_entries hentries
    declarations := hdeclarations
    classes := Index.keys_perm hentries
    names := fun k => Globals.names_perm (hdeclarations k)
    earlierClasses := ⟨(s.keys_prefix_effect first _).trans (s.keys_prefix_effect second _),
      (s.keys_prefix_effect second _).trans (s.keys_prefix_effect first _)⟩
    earlierNames := fun k => ⟨(s.globals.names_prefix_registerBuilt _ k).trans
        (Globals.names_prefix_registerBuilt _ _ k),
      (s.globals.names_prefix_registerBuilt _ k).trans
        (Globals.names_prefix_registerBuilt _ _ k)⟩ }

/-- **Independent documents commute.** When two documents touch no class in common and declare no
global name in common, each gets the same answer whichever is applied first, and the sessions that
are left hold the same. Only new classes and names may stand in another order. -/
theorem documents_commute (hclasses : (s.touched first).Disjoint (s.touched second))
    (hnames : first.globals.names.Disjoint second.globals.names) :
    (s.run [.document second, .document first]).1 =
        (s.run [.document first, .document second]).1.reverse ∧
      SameSince s (s.run [.document first, .document second]).2
        (s.run [.document second, .document first]).2 := by
  rw [run_pair hclasses, run_pair (List.disjoint_symm hclasses)]
  exact ⟨rfl, sameSince_apply hclasses hnames⟩

/-- One document writes on the class of a listener, the other one fails in either order. -/
theorem commute_with_failure :
    let s := start { strictClasses := true, knownClasses := ["Audit"] }
    let listener : Listener := { className := "Audit", callbacks := { postLoad := some "loaded" } }
    let order : Entity := { className := "Order", entityListeners := [listener] }
    let query : NamedQuery := { name := some "all", query := some "select o from Order o" }
    let first : Document := { entities := [order], globals := { namedQueries := [query] } }
    let second : Document := { entities := [{ className := "Item", idClass := some "ItemId" }] }
    (s.run [.document second, .document first]).1 =
        [.error (.unresolvedClass "ItemId" "id class"), .ok (.report ⟨1, 2, 1⟩)] ∧
      SameSince s (s.run [.document first, .document second]).2
        (s.run [.document second, .document first]).2 := by
  intro s listener order query first second
  have hclasses : ∀ c ∈ s.touched first, c ∉ s.touched second := by decide +kernel
  have hnames : ∀ p ∈ first.globals.names, p ∉ second.globals.names := by decide +kernel
  obtain ⟨hanswers, hsame⟩ := documents_commute (fun c => hclasses c) fun p => hnames p
  exact ⟨by rw [hanswers]; decide +kernel, hsame⟩

end Session

end MappingMetadata
