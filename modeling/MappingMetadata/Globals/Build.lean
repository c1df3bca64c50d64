import MappingMetadata.Declaration.Document
import MappingMetadata.Globals.Registry

/-!
# Building global declarations

All global declarations of a document are built, in a fixed order, before any is registered. The
first one that refers to a class that cannot be loaded, or that has no name, makes all fail. A
document without global declarations is passed over (`buildDeclared`).
-/

namespace MappingMetadata

/-- A global declaration, ready to be registered. -/
structure BuiltGlobal where
  kind : GlobalKind
  name : String
  annotation : Annotation

/-- A declaration that is to be registered under its name must have one. -/
def BuiltGlobal.named (kind : GlobalKind) (a : Annotation) : Outcome BuiltGlobal :=
  match a.name? with
  | some name => .ok ⟨kind, name, a⟩
  | none => .error (.missingName a.kind)

namespace Declaration.GlobalDeclarations

/-- The annotation of each declaration: generators, queries, then result-set mappings. -/
def annotations (g : GlobalDeclarations) (path : ClassPath) (d : Defaults) :
    List (GlobalKind × Outcome Annotation) :=
  g.tableGenerators.map (fun t => (.tableGenerator, .ok t.annotation)) ++
  g.sequenceGenerators.map (fun s => (.sequenceGenerator, .ok s.annotation)) ++
  g.namedQueries.map (fun q => (.namedQuery, .ok q.annotation)) ++
  g.namedNativeQueries.map (fun q => (.namedNativeQuery, q.annotation path d)) ++
  g.sqlResultSetMappings.map (fun m => (.sqlResultSetMapping, m.annotation path d))

/-- Build every declaration. -/
def build (g : GlobalDeclarations) (path : ClassPath) (d : Defaults) :
    Outcome (List BuiltGlobal) :=
  (g.annotations path d).mapM fun (kind, result) => do BuiltGlobal.named kind (← result)

/-- Build what is declared, if anything is. -/
def buildDeclared (g : GlobalDeclarations) (path : ClassPath) (d : Defaults) :
    Outcome (List BuiltGlobal) :=
  if g.isEmpty then .ok [] else g.build path d

theorem build_of_isEmpty {g : GlobalDeclarations} (h : g.isEmpty) (path : ClassPath)
    (d : Defaults) : g.build path d = .ok [] := by
  simp only [isEmpty, Bool.and_eq_true, List.isEmpty_iff] at h
  obtain ⟨⟨⟨⟨htable, hsequence⟩, hquery⟩, hnative⟩, hmapping⟩ := h
  rw [build, annotations, htable, hsequence, hquery, hnative, hmapping]
  rfl

/-- Passing over empty declarations makes no difference. -/
@[simp] theorem buildDeclared_eq (g : GlobalDeclarations) (path : ClassPath) (d : Defaults) :
    g.buildDeclared path d = g.build path d := by
  unfold buildDeclared
  split
  · rename_i h
    exact (build_of_isEmpty h path d).symm
  · rfl

end Declaration.GlobalDeclarations

/-- Register built declarations in order. -/
def Globals.registerBuilt (g : Globals) (built : List BuiltGlobal) : Globals :=
  built.foldl (fun g b => g.register b.kind b.name b.annotation) g

end MappingMetadata
