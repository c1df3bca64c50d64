import MappingMetadata.Proofs.Session.Staging
import MappingMetadata.Proofs.Session.Steps

/-!
# The two halves of a document

A document has global declarations, which go to the registry, and entities, which go to the index.
The halves share nothing but the defaults. Either can also be applied alone, by a step of its own.

**Theorem (`document_halves`).** A document does what its halves do, and fails when one of them
does. A step of one entity, or of global declarations, is the document with nothing else in it.
-/

namespace MappingMetadata.Session

open Declaration

variable (s : Session)

/-! ## Nothing declared -/

theorem stage_nil (d : Defaults) : s.stage d [] = .ok (0, s.index) := rfl

/-- Defaults that are left out are those of the session. -/
theorem defaultsFor_unset (es : List Entity) (g : GlobalDeclarations) :
    s.defaultsFor { entities := es, globals := g } = s.settings.defaults :=
  s.settings.defaults.overlay_unset

/-! ## The steps of one half -/

theorem step_entity (e : Entity) : s.step (.entity e) =
    match s.stage s.settings.defaults [e] with
    | .error err => (.error err, s)
    | .ok (n, ix) => (.ok (.count n), { s with index := ix }) := by
  rw [step, perform, Change.run_map, run_entity]
  cases s.stage s.settings.defaults [e] <;> rfl

theorem step_globals (g : GlobalDeclarations) : s.step (.globals g) =
    match g.build s.classPath s.settings.defaults with
    | .error err => (.error err, s)
    | .ok built =>
      (.ok (.count built.length), { s with globals := s.globals.registerBuilt built }) := by
  rw [step, perform, Change.run_map, run_declare]
  cases g.build s.classPath s.settings.defaults <;> rfl

/-- An entity is applied as the document that holds it alone. -/
theorem step_entity_document (e : Entity) : ∃ (outcome : Outcome Nat) (s' : Session),
    s.step (.entity e) = (outcome.map .count, s') ∧
      s.step (.document { entities := [e] }) =
        (outcome.map fun n => .report ⟨1, n, 0⟩, s') := by
  rw [step_entity, step_document, defaultsFor_unset, GlobalDeclarations.build_of_isEmpty rfl]
  dsimp only
  cases s.stage s.settings.defaults [e] with
  | error err => exact ⟨.error err, s, rfl, rfl⟩
  | ok p => exact ⟨.ok p.1, { s with index := p.2 }, rfl, rfl⟩

/-- Global declarations are applied as the document that holds them alone. -/
theorem step_globals_document (g : GlobalDeclarations) :
    ∃ (outcome : Outcome Nat) (s' : Session),
      s.step (.globals g) = (outcome.map .count, s') ∧
        s.step (.document { globals := g }) =
          (outcome.map fun n => .report ⟨0, 0, n⟩, s') := by
  rw [step_globals, step_document, defaultsFor_unset, stage_nil]
  dsimp only
  cases g.build s.classPath s.settings.defaults with
  | error err => exact ⟨.error err, s, rfl, rfl⟩
  | ok built =>
    exact ⟨.ok built.length, { s with globals := s.globals.registerBuilt built }, rfl, rfl⟩

/-! ## Both halves -/

theorem isOk_step_document (doc : Document) : (s.step (.document doc)).1.isOk ↔
    (doc.globals.build s.classPath (s.defaultsFor doc)).isOk ∧
      (s.stage (s.defaultsFor doc) doc.entities).isOk := by
  rw [step_document]
  cases doc.globals.build s.classPath (s.defaultsFor doc) with
  | error err => exact ⟨nofun, nofun⟩
  | ok built =>
    cases s.stage (s.defaultsFor doc) doc.entities with
    | error err => exact ⟨nofun, nofun⟩
    | ok p => exact ⟨fun _ => ⟨rfl, rfl⟩, fun _ => rfl⟩

/-- **A document is its two halves.** It succeeds when its global declarations can be built and its
entities can be staged. The index is then the staged one, the declarations are registered in their
order, and the report counts both. The error is that of the declarations, if they have one, else
that of the entities, and nothing has changed. With defaults left out, a document of one entity and
a document of declarations alone do the same as the steps for these. -/
theorem document_halves (doc : Document) :
    let built := doc.globals.build s.classPath (s.defaultsFor doc)
    let staged := s.stage (s.defaultsFor doc) doc.entities
    let done := s.step (.document doc)
    (done.1.isOk ↔ built.isOk ∧ staged.isOk) ∧
      (∀ bs n ix, built = .ok bs → staged = .ok (n, ix) →
        done = (.ok (.report ⟨doc.entities.length, n, bs.length⟩),
          { s with index := ix, globals := s.globals.registerBuilt bs })) ∧
      (∀ err, built = .error err → done = (.error err, s)) ∧
      (∀ err, built.isOk → staged = .error err → done = (.error err, s)) ∧
      (∀ e : Entity, ∃ (outcome : Outcome Nat) (s' : Session),
        s.step (.entity e) = (outcome.map .count, s') ∧
          s.step (.document { entities := [e] }) =
            (outcome.map fun n => .report ⟨1, n, 0⟩, s')) ∧
      ∀ g : GlobalDeclarations, ∃ (outcome : Outcome Nat) (s' : Session),
        s.step (.globals g) = (outcome.map .count, s') ∧
          s.step (.document { globals := g }) =
            (outcome.map fun n => .report ⟨0, 0, n⟩, s') := by
  intro built staged done
  have hdone : done = _ := s.step_document doc
  refine ⟨s.isOk_step_document doc, fun bs n ix hbuilt hstaged => ?_, fun err hbuilt => ?_,
    fun err hbuilt hstaged => ?_, s.step_entity_document, s.step_globals_document⟩
  · have hbuilt : doc.globals.build s.classPath (s.defaultsFor doc) = .ok bs := hbuilt
    have hstaged : s.stage (s.defaultsFor doc) doc.entities = .ok (n, ix) := hstaged
    rw [hdone, hbuilt, hstaged]
  · have hbuilt : doc.globals.build s.classPath (s.defaultsFor doc) = .error err := hbuilt
    rw [hdone, hbuilt]
  · obtain ⟨bs, hbuilt⟩ := Outcome.isOk_iff.1 hbuilt
    have hbuilt : doc.globals.build s.classPath (s.defaultsFor doc) = .ok bs := hbuilt
    have hstaged : s.stage (s.defaultsFor doc) doc.entities = .error err := hstaged
    rw [hdone, hbuilt, hstaged]

end MappingMetadata.Session
