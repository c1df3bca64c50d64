import MappingMetadata.CommandLine.Arguments
import MappingMetadata.Files.FileTree
import MappingMetadata.Files.Library
import MappingMetadata.Session

/-!
# Runs of the program

A run loads the settings, the index and all documents, applies the documents in their order, and
hands out what the command asks for. Nothing is handed out unless everything before has worked.

Runs take place on any disk; `runOn` is a run on a file tree.
-/

namespace MappingMetadata

/-! ## Summaries -/

namespace Metadata

/-- A line for a class. -/
def classLine (name : String) (e : ClassEntry) : String :=
  "  " ++ name ++ ": " ++ toString e.toList.length ++ " element(s)" ++
    (if e.metadataComplete then " (metadata complete)" else "") ++ "\n"

/-- A line for a global declaration: its name, or how many it wraps. -/
def globalLine (a : Annotation) : String :=
  "  " ++ a.kind.name ++
    (match a.name? with
      | some name => " " ++ name
      | none => " (" ++ toString a.members.length ++ " members)") ++ "\n"

/-- How many annotations each class has, and the global declarations, line by line. -/
def summary (m : Metadata) : String :=
  "Mocked " ++ toString m.classes.size ++ " class(es):\n" ++
    String.join (m.classes.entries.map fun p => classLine p.1 p.2) ++
    (if m.globals.isEmpty then "No global declarations\n"
      else "Global declarations: " ++ toString m.globals.length ++ "\n" ++
        String.join (m.globals.map globalLine))

end Metadata

namespace CommandLine

/-- Why a run fails. -/
inductive Failure where
  /-- The settings file cannot be read. -/
  | unreadableSettings (path : String)
  /-- Documents in folders could not be loaded. -/
  | notLoaded (count : Nat)
  | library (e : Error)
  deriving DecidableEq, Repr

/-- The report of a failed run. -/
def Failure.message : Failure → String
  | unreadableSettings path => "Failed to read " ++ path
  | notLoaded count => toString count ++ " mapping document(s) could not be loaded"
  | library e => e.message

variable {m : Type → Type} [Monad m]

/-- A step of a run. -/
abbrev Attempt (m : Type → Type) := ExceptT Failure m

/-- A step of the library as a step of a run. -/
def attempt {α : Type} (step : ExceptT Error m α) : Attempt m α := step.adapt .library

/-- A result of the library as a step of a run. -/
def ofOutcome {α : Type} (result : Outcome α) : Attempt m α := attempt (ExceptT.mk (pure result))

/-- The settings: those of the settings file, changed by the options. -/
def settings (disk : Disk m) (args : Arguments) : Attempt m Settings := do
  let s ← match args.config with
    | some path => do
      match ← disk.read? path with
      | some text => ofOutcome ((Format.ofPath path).read Settings.codec.read text)
      | none => throw (.unreadableSettings path)
    | none => pure {}
  let s := match args.package with
    | some p => { s with defaults := { s.defaults with package := some p } }
    | none => s
  return { s with strictClasses := s.strictClasses || args.strict }

/-- The session before the first document. -/
def session (disk : Disk m) (args : Arguments) : Attempt m Session := do
  let s ← settings disk args
  match args.index with
  | some path => do
    let ix ← attempt (disk.loadIndex path)
    ofOutcome (Session.ofIndex s ix)
  | none => return Session.start s

/-- The documents of one input, and how many could not be loaded. -/
def inputDocuments (disk : Disk m) (keepGoing : Bool) (input : String) :
    Attempt m (List Declaration.Document × Nat) := do
  if ← disk.isFolder input then
    let loaded ← attempt (disk.loadFolder input)
    let documents := loaded.filterMap fun p => p.2.toOption
    return (documents, loaded.length - documents.length)
  else
    match ← ExceptT.lift (disk.loadDocument input).run with
    | .ok d => return ([d], 0)
    | .error e => if keepGoing then return ([], 1) else throw (.library e)

/-- The documents of all inputs in order. Those that cannot be loaded are passed over if the run
is to keep going, else they make it fail. -/
def documents (disk : Disk m) (args : Arguments) : Attempt m (List Declaration.Document) := do
  let loaded ← args.inputs.mapM (inputDocuments disk args.keepGoing)
  let failed := loaded.foldl (fun n p => n + p.2) 0
  if failed ≠ 0 ∧ ¬args.keepGoing then throw (.notLoaded failed)
  return loaded.flatMap Prod.fst

/-- The session after the last document. -/
def finalSession (disk : Disk m) (args : Arguments) : Attempt m Session := do
  let s ← session disk args
  let docs ← documents disk args
  ofOutcome (s.runStrict (docs.map .document))

/-- What a run prints. -/
def output (disk : Disk m) (args : Arguments) : Attempt m String := do
  let s ← finalSession disk args
  match args.command with
  | .mock (some path) _ =>
    attempt (disk.save args.format s.finish path)
    return s.finish.summary ++ "\n"
  | .mock none true => return s.finish.summary ++ "\n"
  | .mock none false => return args.format.render s.finish.toData ++ "\n"
  | .globals true =>
    let lines := s.globals.toList.map fun p => p.1.scalar.name ++ "\t" ++ p.2.1 ++ "\n"
    return String.join lines
  | .globals false =>
    let data := Annotation.codec.list.write s.finish.globals
    return args.format.render data ++ "\n"

/-- How the program ends. -/
structure Ending where
  exitCode : UInt8
  stdout : String
  failure : Option Failure := none

/-- What is printed about the program itself. -/
def versionText : String := "mmock 0.3.0\n"

/-- A reminder of the commands and their options. -/
def helpText : String :=
  "mmock mock INPUT... [--output FILE] [--summary] [options]\n" ++
  "mmock globals INPUT... [--names] [options]\n" ++
  "options: --index FILE, --config FILE, --package NAME, --strict, --keep-going,\n" ++
  "  --format json|yaml\n"

/-- Run the program with its arguments. -/
def execute (disk : Disk m) (args : List String) : m Ending := do
  match request? args with
  | none => return ⟨2, "", none⟩
  | some .version => return ⟨0, versionText, none⟩
  | some .help => return ⟨0, helpText, none⟩
  | some (.run args) =>
    match ← (output disk args).run with
    | .ok text => return ⟨0, text, none⟩
    | .error f => return ⟨1, "", some f⟩

/-- Run the program on a file tree; returns also the tree afterwards. -/
def runOn (t : FileTree) (args : List String) : Ending × FileTree :=
  (execute FileTree.disk args).run t

end CommandLine

end MappingMetadata
