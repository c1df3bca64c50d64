import MappingMetadata.CommandLine.Run
import MappingMetadata.Proofs.Files.Saving
import MappingMetadata.Proofs.Session.Failure

/-!
# What a run applies and hands out

A run on a file tree applies the documents that its inputs name, in their order and as often as
they are named. One that does not load makes the run fail, or is passed over when the run is to
keep going; one that cannot be applied always makes it fail. A run that fails before it hands
anything out leaves the tree as it is.

The documents are steps of a session. The program stops at the first step that fails, which is
told from the answers of the run that goes on (`Session.error?_runStrict`).

**Theorem (`CommandLine.runOn_documents`).** Every run ends like this, whichever way its documents
come to be named.
-/

namespace MappingMetadata

open Declaration FileTree

namespace FileTree

/-- The document in a file, if it loads. -/
def document? (t : FileTree) (path : String) : Option Document :=
  (t.loaded Document.codec.read path).toOption

/-- The paths of the documents that an input names: those in a folder, or else the input. -/
def inputPaths (t : FileTree) (input : String) : List String :=
  if t.hasFolder input then t.documentPaths input else [input]

end FileTree

namespace CommandLine

variable {α : Type} {t : FileTree}

/-! ## Settings and session -/

theorem run_ofOutcome (r : Outcome α) :
    (ofOutcome r : Attempt (StateM FileTree) α).run.run t = (r.mapError Failure.library, t) :=
  run_adapt rfl Failure.library

theorem finds_ofOutcome (r : Outcome α) :
    Finds (ofOutcome r : Attempt (StateM FileTree) α) t r.toOption :=
  ⟨_, run_ofOutcome r, by cases r <;> rfl⟩

/-- The settings in the settings file, if it loads; the usual ones when none is given. -/
def Arguments.config? (args : Arguments) (t : FileTree) : Option Settings :=
  match args.config with
  | some path => (t.loaded Settings.codec.read path).toOption
  | none => some {}

/-- The settings as the options change them. -/
def Arguments.adjust (args : Arguments) (s : Settings) : Settings :=
  { s with
    defaults := { s.defaults with package := args.package <|> s.defaults.package }
    strictClasses := s.strictClasses || args.strict }

/-- The session that a run starts from, if settings and index load. -/
def Arguments.session? (args : Arguments) (t : FileTree) : Option Session := do
  let s ← (args.config? t).map args.adjust
  match args.index with
  | some path => (Session.ofIndex s (← (t.loaded Index.readSnapshot path).toOption)).toOption
  | none => return Session.start s

theorem finds_settings (args : Arguments) :
    Finds (settings disk args) t ((args.config? t).map args.adjust) := by
  have hread (path : String) : (disk.read? path).run t = (t.read? path, t) := rfl
  have hadjust (s : Settings) : Finds (pure (let s := match args.package with
        | some p => { s with defaults := { s.defaults with package := some p } }
        | none => s
      { s with strictClasses := s.strictClasses || args.strict }) : Attempt (StateM FileTree) _) t
      (some (args.adjust s)) := by
    unfold Arguments.adjust
    cases args.package <;> exact finds_pure _
  unfold settings Arguments.config?
  cases args.config with
  | none => exact (finds_pure _).bind_some (hadjust _)
  | some path =>
    refine (finds_lift (hread path)).bind_some ?_
    dsimp only [loaded]
    cases t.read? path with
    | none => exact (finds_throw _).bind_map hadjust
    | some text => exact (finds_ofOutcome _).bind_map hadjust

theorem finds_session (args : Arguments) : Finds (session disk args) t (args.session? t) := by
  refine (finds_settings args).bind fun s _ => ?_
  cases args.index with
  | none => exact finds_pure _
  | some path =>
    exact ((finds_load t Index.readSnapshot path).adapt .library).bind fun ix _ =>
      finds_ofOutcome (Session.ofIndex s ix)

/-! ## Documents -/

/-- May the run go on with these files? -/
def Arguments.Admits (args : Arguments) (t : FileTree) (paths : List String) : Prop :=
  args.keepGoing ∨ ∀ path ∈ paths, (t.document? path).isSome

instance (args : Arguments) (t : FileTree) (paths : List String) :
    Decidable (args.Admits t paths) :=
  inferInstanceAs (Decidable (_ ∨ _))

/-- The documents that load, and how many do not. -/
def sift (t : FileTree) (paths : List String) : List Document × Nat :=
  let docs := paths.filterMap t.document?
  (docs, paths.length - docs.length)

theorem sift_snd_eq_zero_iff (t : FileTree) (paths : List String) :
    (sift t paths).2 = 0 ↔ ∀ path ∈ paths, (t.document? path).isSome := by
  rw [← List.filterMap_length_eq_length]
  have hle := List.length_filterMap_le t.document? paths
  exact Nat.sub_eq_zero_iff_le.trans
    ⟨fun h => Nat.le_antisymm hle h, fun h => Nat.le_of_eq h.symm⟩

theorem finds_folderDocuments {folder : String} (h : t.hasFolder folder) (keepGoing : Bool) :
    Finds (inputDocuments disk keepGoing folder) t (some (sift t (t.documentPaths folder))) := by
  have hfolder : (disk.isFolder folder).run t = (true, t) := congrArg (·, t) h
  have hdocs : ((t.documentPaths folder).map fun path =>
      (path, t.loaded Document.codec.read path)).filterMap (fun p => p.2.toOption) =
      (t.documentPaths folder).filterMap t.document? := List.filterMap_map
  refine (finds_lift hfolder).bind_some ?_
  refine ((finds_loadFolder h).adapt Failure.library).bind_some ?_
  rw [hdocs, List.length_map]
  exact finds_pure _

theorem finds_fileDocuments {path : String} (h : t.hasFolder path = false) (keepGoing : Bool) :
    Finds (inputDocuments disk keepGoing path) t
      (if keepGoing ∨ (t.document? path).isSome then some (sift t [path]) else none) := by
  have hfolder : (disk.isFolder path).run t = (false, t) := congrArg (·, t) h
  refine (finds_lift hfolder).bind_some ?_
  refine (finds_lift (run_load t Document.codec.read path)).bind_some ?_
  cases hloaded : t.loaded Document.codec.read path with
  | ok doc =>
    have hdoc : t.document? path = some doc := by rw [document?, hloaded]; rfl
    have hsift : sift t [path] = ([doc], 0) := by simp [sift, hdoc]
    rw [hdoc, hsift, if_pos (.inr rfl)]
    exact finds_pure _
  | error e =>
    have hdoc : t.document? path = none := by rw [document?, hloaded]; rfl
    have hsift : sift t [path] = ([], 1) := by simp [sift, hdoc]
    rw [hdoc, hsift]
    cases keepGoing with
    | true => exact finds_pure _
    | false => exact finds_throw _

/-- An input makes the run fail at once when it is a file that does not load. -/
theorem finds_inputDocuments (t : FileTree) (keepGoing : Bool) (input : String) :
    Finds (inputDocuments disk keepGoing input) t
      (if t.hasFolder input ∨ keepGoing ∨ (t.document? input).isSome then
        some (sift t (t.inputPaths input)) else none) := by
  unfold inputPaths
  cases h : t.hasFolder input with
  | true => simpa using finds_folderDocuments h keepGoing
  | false => simpa using finds_fileDocuments h keepGoing

theorem foldl_add_eq_zero_iff {β : Type} {loaded : List (β × Nat)} {n : Nat} :
    loaded.foldl (fun n p => n + p.2) n = 0 ↔ n = 0 ∧ ∀ p ∈ loaded, p.2 = 0 := by
  induction loaded generalizing n with
  | nil => simp
  | cons p loaded ih =>
    rw [List.foldl_cons, ih, List.forall_mem_cons, Nat.add_eq_zero_iff, and_assoc]

/-- When no input makes it fail at once, the documents of all inputs have been gone through before
the run asks whether they have loaded. -/
theorem finds_documents (t : FileTree) (args : Arguments) :
    let paths := args.inputs.flatMap t.inputPaths
    Finds (documents disk args) t
      (if args.Admits t paths then some (paths.filterMap t.document?) else none) := by
  intro paths
  by_cases hgone : ∀ input ∈ args.inputs,
      t.hasFolder input ∨ args.keepGoing ∨ (t.document? input).isSome
  -- Every input has been gone through, and what counts is how many documents have failed.
  · have hloaded : Finds (args.inputs.mapM (inputDocuments disk args.keepGoing)) t
        (some (args.inputs.map fun input => sift t (t.inputPaths input))) := by
      refine Finds.mapM_some fun input hinput => ?_
      have hfinds := finds_inputDocuments t args.keepGoing input
      rwa [if_pos (hgone input hinput)] at hfinds
    have hfailed : (args.inputs.map fun input => sift t (t.inputPaths input)).foldl
        (fun n p => n + p.2) 0 = 0 ↔ ∀ path ∈ paths, (t.document? path).isSome := by
      rw [foldl_add_eq_zero_iff, and_iff_right rfl, List.forall_mem_map, List.forall_mem_flatMap]
      exact forall₂_congr fun input _ => sift_snd_eq_zero_iff t _
    have hdocs : (args.inputs.map fun input => sift t (t.inputPaths input)).flatMap Prod.fst =
        paths.filterMap t.document? := by
      rw [List.flatMap_map, List.filterMap_flatMap]
      rfl
    refine hloaded.bind_some ?_
    rw [hdocs]
    by_cases hadmits : args.Admits t paths
    · rw [if_pos hadmits, if_neg fun h => hadmits.elim h.2 fun hall => h.1 (hfailed.2 hall)]
      exact finds_pure _
    · obtain ⟨hkeep, hall⟩ := not_or.1 hadmits
      rw [if_neg hadmits, if_pos ⟨fun h => hall (hfailed.1 h), hkeep⟩]
      exact (finds_throw _).bind_none _
  -- A file does not load, and the run fails before anything is counted.
  · simp only [Classical.not_forall, not_or] at hgone
    obtain ⟨input, hinput, hfolder, hkeep, hdoc⟩ := hgone
    have hpath : input ∈ paths := by
      refine List.mem_flatMap.2 ⟨input, hinput, ?_⟩
      rw [inputPaths, if_neg hfolder]
      exact List.mem_singleton_self input
    have hrefused : ¬args.Admits t paths := not_or.2 ⟨hkeep, fun h => hdoc (h input hpath)⟩
    have hloaded := Finds.mapM_none (fun input _ => finds_inputDocuments t args.keepGoing input)
      hinput (if_neg (by simp [hfolder, hkeep, hdoc]))
    rw [if_neg hrefused]
    exact hloaded.bind_none _

/-! ## Whole runs -/

theorem finds_finalSession_none {args : Arguments}
    (h : ¬args.Admits t (args.inputs.flatMap t.inputPaths) ∨ args.session? t = none) :
    Finds (finalSession disk args) t none := by
  have hsession := finds_session (t := t) args
  cases hs : args.session? t with
  | none =>
    rw [hs] at hsession
    exact hsession.bind_none _
  | some s =>
    have hrefused := h.resolve_right (by rw [hs]; nofun)
    have hdocs : Finds (documents disk args) t _ := finds_documents t args
    rw [hs] at hsession
    rw [if_neg hrefused] at hdocs
    exact hsession.bind_some (hdocs.bind_none _)

/-- Session and documents are at hand before the first document is applied. -/
theorem run_finalSession {args : Arguments} {s : Session} {docs : List Document}
    (hs : args.session? t = some s) (hdocs : Finds (documents disk args) t (some docs)) :
    (finalSession disk args).run.run t =
      ((s.runStrict (docs.map .document)).mapError Failure.library, t) := by
  have hsession := finds_session (t := t) args
  rw [hs] at hsession
  exact (run_bind_ok hsession.run_some).trans
    ((run_bind_ok hdocs.run_some).trans (run_ofOutcome _))

/-- What a run hands out of the session after all documents: what it prints, and what it leaves of
the tree. -/
def Arguments.HandsOut (args : Arguments) (s : Session) (t : FileTree) (text : String)
    (t' : FileTree) : Prop :=
  match args.command with
  | .mock (some path) _ =>
    text = s.finish.summary ++ "\n" ∧ t.Saved t' path (args.format.render s.finish.toData)
  | .mock none true => text = s.finish.summary ++ "\n" ∧ t' = t
  | .mock none false => text = args.format.render s.finish.toData ++ "\n" ∧ t' = t
  | .globals true =>
    text = String.join (s.globals.toList.map fun p => p.1.scalar.name ++ "\t" ++ p.2.1 ++ "\n") ∧
      t' = t
  | .globals false =>
    let data := Annotation.codec.list.write s.finish.globals
    text = args.format.render data ++ "\n" ∧ t' = t

/-- How the program ends when its run has come to this. -/
def Ending.ofResult : Except Failure String → Ending
  | .ok text => ⟨0, text, none⟩
  | .error f => ⟨1, "", some f⟩

theorem runOn_of_output {t t' : FileTree} {argv : List String} {args : Arguments}
    {r : Except Failure String} (h : request? argv = some (.run args))
    (hr : (output disk args).run.run t = (r, t')) : runOn t argv = (.ofResult r, t') := by
  unfold runOn execute
  rw [h]
  dsimp only
  rw [StateT.run_bind, hr]
  cases r <;> rfl

/-- Only saving can still go wrong when all documents have been applied. -/
theorem run_output_of_session {args : Arguments} {s : Session}
    (h : (finalSession disk args).run.run t = (.ok s, t)) :
    (∃ text t', (output disk args).run.run t = (.ok text, t') ∧ args.HandsOut s t text t') ∨
      ∃ path summary failed t', args.command = .mock (some path) summary ∧
        (output disk args).run.run t = (.error (.library (.unwritable failed)), t') := by
  have hrun : (output disk args).run.run t = _ := run_bind_ok h
  rw [hrun]
  unfold Arguments.HandsOut
  cases args.command with
  | mock path summary =>
    cases path with
    | none => cases summary <;> exact .inl ⟨_, t, rfl, rfl, rfl⟩
    | some path =>
      obtain ⟨t', ⟨hsave, hsaved⟩ | ⟨failed, hsave⟩⟩ := run_save t args.format s.finish path
      · exact .inl ⟨_, t', run_bind_ok (run_adapt hsave Failure.library), rfl, hsaved⟩
      · exact .inr ⟨path, summary, failed, t', rfl,
          run_bind_error (run_adapt hsave Failure.library)⟩
  | globals names => cases names <;> exact .inl ⟨_, t, rfl, rfl, rfl⟩

end CommandLine

end MappingMetadata
