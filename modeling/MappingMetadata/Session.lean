import MappingMetadata.Entity.Writes
import MappingMetadata.Globals.Build

/-!
# Sessions

A session applies mapping documents to an index and a registry of global declarations, one after
another. A step changes the session in place, and `run` goes on with whatever a failing step leaves
behind. Entities are enrolled and processed on a copy of the index (`stage`), which a step takes
over only when all of them have succeeded.
-/

namespace MappingMetadata

open Declaration

/-- A session between two steps. -/
structure Session where
  settings : Settings
  classPath : ClassPath
  index : Index := .empty
  globals : Globals := .empty

/-- What a session hands over at its end. -/
structure Metadata where
  classes : Dict String ClassEntry
  globals : List Annotation

/-- How much a document has added. -/
structure Report where
  entities : Nat
  annotations : Nat
  globals : Nat
  deriving DecidableEq, Repr, Inhabited

namespace Session

/-! ## Starting -/

/-- The session over an empty index. -/
def start (settings : Settings) : Session :=
  { settings := settings, classPath := .ofSettings settings }

/-- The kinds that a session takes out of the index it starts over. -/
def takenKinds : List Kind := GlobalKind.all.flatMap fun g => [g.scalar, g.wrapper]

/-- The session over an index. The global declarations in the index move to the registry. -/
def ofIndex (settings : Settings) (ix : Index) : Outcome Session :=
  match Globals.empty.registerAll (Globals.harvest ix) with
  | (_, some e) => .error e
  | (globals, none) =>
    .ok { start settings with index := takenKinds.foldl Index.removeKind ix, globals := globals }

/-- The session with another class path. -/
def withClassPath (s : Session) (path : ClassPath) : Session := { s with classPath := path }

/-! ## Steps -/

/-- What the entities of a step are processed under. -/
def context (s : Session) (d : Defaults) : Context :=
  ⟨d, s.classPath, s.settings.dedupeOverrides⟩

/-- Enrol entities one after another; returns each with the name of its class. -/
def enrolAll (d : Defaults) : List Entity → Change Index (List (Entity × String))
  | [] => return []
  | e :: es => do
    let className ← e.enrol d
    let enrolled ← enrolAll d es
    return (e, className) :: enrolled

/-- Process enrolled entities one after another; returns how many annotations were written. -/
def processAll (ctx : Context) : List (Entity × String) → Change Index Nat
  | [] => return 0
  | (e, className) :: es => do
    let written ← e.process ctx (some className)
    let more ← processAll ctx es
    return written + more

/-- Enrol all entities and then process them. -/
def mockAll (ctx : Context) (es : List Entity) : Change Index Nat := do
  let enrolled ← enrolAll ctx.defaults es
  processAll ctx enrolled

/-- Enrol and process entities on a copy of the index; returns how many annotations were written,
and the copy. -/
def stage (s : Session) (d : Defaults) (es : List Entity) : Outcome (Nat × Index) :=
  (mockAll (s.context d) es).onCopy s.index

/-- Apply a document under its defaults over those of the session. The global declarations are
built first; index and registry change only when everything has succeeded. -/
def document (doc : Document) : Change Session Report := do
  let s ← get
  let d := s.settings.defaults.overlay doc.defaults
  let built ← doc.globals.buildDeclared s.classPath d
  let (written, ix) ← s.stage d doc.entities
  modify fun s => { s with index := ix }
  modify fun s => { s with globals := s.globals.registerBuilt built }
  return ⟨doc.entities.length, written, built.length⟩

/-- Apply one entity under the defaults of the session. -/
def entity (e : Entity) : Change Session Nat := do
  let s ← get
  let (written, ix) ← s.stage s.settings.defaults [e]
  modify fun s => { s with index := ix }
  return written

/-- Register global declarations under the defaults of the session. -/
def declare (g : GlobalDeclarations) : Change Session Nat := do
  let s ← get
  let built ← g.build s.classPath s.settings.defaults
  modify fun s => { s with globals := s.globals.registerBuilt built }
  return built.length

theorem run_document (doc : Document) (s : Session) :
    (document doc).run s =
      let d := s.settings.defaults.overlay doc.defaults
      match doc.globals.build s.classPath d with
      | .error e => .error e s
      | .ok built => match s.stage d doc.entities with
        | .error e => .error e s
        | .ok (written, ix) => .ok ⟨doc.entities.length, written, built.length⟩
            { s with index := ix, globals := s.globals.registerBuilt built } := by
  unfold document
  rw [EStateM.run_bind, EStateM.run_get]
  dsimp only
  rw [EStateM.run_bind, Change.run_liftM, GlobalDeclarations.buildDeclared_eq]
  cases doc.globals.build s.classPath (s.settings.defaults.overlay doc.defaults) with
  | error e => rfl
  | ok built =>
    dsimp only
    rw [EStateM.run_bind, Change.run_liftM]
    cases s.stage (s.settings.defaults.overlay doc.defaults) doc.entities with
    | error e => rfl
    | ok p => rfl

theorem run_entity (e : Entity) (s : Session) :
    (entity e).run s = match s.stage s.settings.defaults [e] with
      | .error err => .error err s
      | .ok (written, ix) => .ok written { s with index := ix } := by
  unfold entity
  rw [EStateM.run_bind, EStateM.run_get]
  dsimp only
  rw [EStateM.run_bind, Change.run_liftM]
  cases s.stage s.settings.defaults [e] with
  | error err => rfl
  | ok p => rfl

theorem run_declare (g : GlobalDeclarations) (s : Session) :
    (declare g).run s = match g.build s.classPath s.settings.defaults with
      | .error e => .error e s
      | .ok built => .ok built.length { s with globals := s.globals.registerBuilt built } := by
  unfold declare
  rw [EStateM.run_bind, EStateM.run_get]
  dsimp only
  rw [EStateM.run_bind, Change.run_liftM]
  cases g.build s.classPath s.settings.defaults with
  | error e => rfl
  | ok built => rfl

/-! ## Runs -/

/-- One step of a run. -/
inductive Step where
  | document (doc : Document)
  | entity (e : Entity)
  | globals (g : GlobalDeclarations)
  deriving DecidableEq, Repr, Inhabited

/-- What a step reports when it succeeds. -/
inductive Answer where
  | report (r : Report)
  | count (n : Nat)
  deriving DecidableEq, Repr, Inhabited

/-- What a step does to the session. -/
def perform : Step → Change Session Answer
  | .document doc => .report <$> document doc
  | .entity e => .count <$> entity e
  | .globals g => .count <$> declare g

/-- Perform one step: what it reports, and the session that it leaves behind. -/
def step (s : Session) (t : Step) : Outcome Answer × Session :=
  match (perform t).run s with
  | .ok answer s' => (.ok answer, s')
  | .error e s' => (.error e, s')

/-- Perform one step of a run that its failure ends. -/
def apply (s : Session) (t : Step) : Outcome (Answer × Session) := (perform t).onCopy s

/-- Run steps one after another; a failing step does not stop the run. -/
def run (s : Session) : List Step → List (Outcome Answer) × Session
  | [] => ([], s)
  | t :: ts =>
    let (answer, s) := s.step t
    let (answers, s) := s.run ts
    (answer :: answers, s)

/-- Run steps up to the first that fails. -/
def runStrict (s : Session) : List Step → Outcome Session
  | [] => .ok s
  | t :: ts => do
    let (_, s) ← s.apply t
    s.runStrict ts

/-- The finished metadata. -/
def finish (s : Session) : Metadata := ⟨s.index.classes, s.globals.finish⟩

end Session

end MappingMetadata
