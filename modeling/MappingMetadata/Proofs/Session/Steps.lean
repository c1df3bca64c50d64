import MappingMetadata.Session

/-!
# What a step can do

A step either fails and leaves the session as it was, or takes over finished results: built global
declarations, a staged index, or both. `Stepped` lists the ways, with all that must have succeeded
for each; everything that is said about runs goes through it.
-/

namespace MappingMetadata.Session

open Declaration

/-- The defaults that a document is applied under. -/
def defaultsFor (s : Session) (doc : Document) : Defaults :=
  s.settings.defaults.overlay doc.defaults

/-- The outcome of a step and the session that it leaves behind. -/
inductive Stepped (s : Session) : Step → Outcome Answer × Session → Prop where
  | failed (t : Step) (e : Error) : Stepped s t (.error e, s)
  | document {doc : Document} {built : List BuiltGlobal} {n : Nat} {ix : Index}
      (hbuilt : doc.globals.build s.classPath (s.defaultsFor doc) = .ok built)
      (hstage : s.stage (s.defaultsFor doc) doc.entities = .ok (n, ix)) :
      Stepped s (.document doc) (.ok (.report ⟨doc.entities.length, n, built.length⟩),
        { s with index := ix, globals := s.globals.registerBuilt built })
  | entity {e : Entity} {n : Nat} {ix : Index}
      (hstage : s.stage s.settings.defaults [e] = .ok (n, ix)) :
      Stepped s (.entity e) (.ok (.count n), { s with index := ix })
  | globals {g : GlobalDeclarations} {built : List BuiltGlobal}
      (hbuilt : g.build s.classPath s.settings.defaults = .ok built) :
      Stepped s (.globals g) (.ok (.count built.length),
        { s with globals := s.globals.registerBuilt built })

theorem step_document (s : Session) (doc : Document) :
    s.step (.document doc) =
      match doc.globals.build s.classPath (s.defaultsFor doc) with
      | .error e => (.error e, s)
      | .ok built => match s.stage (s.defaultsFor doc) doc.entities with
        | .error e => (.error e, s)
        | .ok (n, ix) => (.ok (.report ⟨doc.entities.length, n, built.length⟩),
            { s with index := ix, globals := s.globals.registerBuilt built }) := by
  rw [step, perform, Change.run_map, run_document]
  dsimp only
  unfold defaultsFor
  cases doc.globals.build s.classPath (s.settings.defaults.overlay doc.defaults) with
  | error e => rfl
  | ok built =>
    dsimp only
    cases s.stage (s.settings.defaults.overlay doc.defaults) doc.entities <;> rfl

/-- **When a document succeeds, and what it leaves.** -/
theorem step_document_eq_ok_iff {s s' : Session} {doc : Document} {a : Answer} :
    s.step (.document doc) = (.ok a, s') ↔ ∃ built n ix,
      doc.globals.build s.classPath (s.defaultsFor doc) = .ok built ∧
      s.stage (s.defaultsFor doc) doc.entities = .ok (n, ix) ∧
      a = .report ⟨doc.entities.length, n, built.length⟩ ∧
      s' = { s with index := ix, globals := s.globals.registerBuilt built } := by
  rw [step_document]
  cases doc.globals.build s.classPath (s.defaultsFor doc) with
  | error e => simp
  | ok built =>
    dsimp only
    cases s.stage (s.defaultsFor doc) doc.entities with
    | error e => simp
    | ok p =>
      constructor
      · intro h
        cases h
        exact ⟨built, p.1, p.2, rfl, rfl, rfl, rfl⟩
      · rintro ⟨_, _, _, hbuilt, hstage, rfl, rfl⟩
        cases hbuilt
        cases hstage
        rfl

theorem stepped (s : Session) (t : Step) : Stepped s t (s.step t) := by
  cases t with
  | document doc =>
    rw [step_document]
    cases hbuilt : doc.globals.build s.classPath (s.defaultsFor doc) with
    | error e => exact .failed _ e
    | ok built =>
      dsimp only
      cases hstage : s.stage (s.defaultsFor doc) doc.entities with
      | error e => exact .failed _ e
      | ok p => exact .document hbuilt hstage
  | entity e =>
    rw [step, perform, Change.run_map, run_entity]
    cases hstage : s.stage s.settings.defaults [e] with
    | error err => exact .failed _ err
    | ok p => exact .entity hstage
  | globals g =>
    rw [step, perform, Change.run_map, run_declare]
    cases hbuilt : g.build s.classPath s.settings.defaults with
    | error e => exact .failed _ e
    | ok built => exact .globals hbuilt

/-- A step changes neither the settings nor the class path. -/
theorem settings_step (s : Session) (t : Step) :
    (s.step t).2.settings = s.settings ∧ (s.step t).2.classPath = s.classPath := by
  have h := s.stepped t
  generalize s.step t = r at h ⊢
  cases h <;> exact ⟨rfl, rfl⟩

theorem run_cons (s : Session) (t : Step) (ts : List Step) :
    s.run (t :: ts) = ((s.step t).1 :: ((s.step t).2.run ts).1, ((s.step t).2.run ts).2) := rfl

end MappingMetadata.Session
