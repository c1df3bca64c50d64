import MappingMetadata.Declaration.Document
import MappingMetadata.Entity.Writes
import MappingMetadata.Globals.Build
import MappingMetadata.Proofs.Alike

/-!
# Declarations with full class names

Under a default package a class name without a dot is a short one. *Qualifying* a declaration writes
out every short name in it: those of entities, id classes, target entities and listeners, and those
of the classes that queries and their results refer to. Blank names are left as they are.

A name and its full form are looked up with the same result, the name in an error included
(`resolve_qualifiedName`), so qualified declarations stand for the same annotations. That a name is
written out once and not twice is in `qualify_qualifiedName`.
-/

namespace MappingMetadata

/-- The full form of a class name in a package; a blank name has none. -/
def qualifiedName (package className : String) : String :=
  if Text.isBlank className || className.toList.contains '.' then className
  else package ++ "." ++ className

section

variable {d : Defaults} {package : String}

theorem isBlank_qualifiedName (package className : String) :
    Text.isBlank (qualifiedName package className) = Text.isBlank className := by
  unfold qualifiedName
  split
  · rfl
  · rename_i hshort
    have hblank : ¬ Text.isBlank className := fun hb => hshort (by rw [hb, Bool.true_or])
    have hdot : ¬ Text.isSpace '.' := by decide
    rw [Bool.eq_false_iff.2 hblank]
    simp [Text.isBlank, hdot]

theorem isEmpty_qualifiedName (package className : String) :
    (qualifiedName package className).isEmpty = className.isEmpty := by
  unfold qualifiedName
  split
  · rfl
  · rename_i hshort
    have hne : className ≠ "" := by
      rintro rfl
      exact hshort (by decide)
    rw [Bool.eq_iff_iff, String.isEmpty_iff, String.isEmpty_iff]
    simp [hne]

/-- A full name is not qualified again. -/
theorem qualify_qualifiedName (hpackage : d.package = some package) (hne : package ≠ "")
    (className : String) : d.qualify (qualifiedName package className) = d.qualify className := by
  unfold qualifiedName
  split
  · rfl
  · rename_i hshort
    have hdot : ¬ className.toList.contains '.' := fun h => hshort (by rw [h, Bool.or_true])
    have hempty : package.isEmpty = false := by simpa using hne
    rw [Defaults.qualify, Defaults.qualify, hpackage]
    dsimp only
    rw [if_pos (by simp), if_neg (by simp [hempty] at hdot ⊢; exact hdot)]

namespace ClassPath

variable (path : ClassPath) (hpackage : d.package = some package) (hne : package ≠ "")
include hpackage hne

/-- **A class is looked up under its full name with the same result.** -/
theorem resolve_qualifiedName (className role : String) :
    path.resolve d (qualifiedName package className) role = path.resolve d className role := by
  rw [resolve, resolve, qualify_qualifiedName hpackage hne]

theorem resolve?_qualifiedName (className : Option String) (role : String) :
    path.resolve? d (className.map (qualifiedName package)) role =
      path.resolve? d className role := by
  have hfilter : ((className.map (qualifiedName package)).filter fun c => !c.isEmpty) =
      (className.filter fun c => !c.isEmpty).map (qualifiedName package) := by
    rw [Option.filter_map]
    simp only [Function.comp_def, isEmpty_qualifiedName]
  rw [resolve?, resolve?, hfilter]
  cases className.filter fun c => !c.isEmpty with
  | none => rfl
  | some c =>
    rw [Option.map_some]
    exact congrArg (Except.map some) (path.resolve_qualifiedName hpackage hne c role)

end ClassPath

end

namespace Declaration

/-! ## Declarations of entities -/

def AssociationAttribute.qualified (package : String) (a : AssociationAttribute) :
    AssociationAttribute :=
  { a with targetEntity := a.targetEntity.map (qualifiedName package) }

def Listener.qualified (package : String) (l : Listener) : Listener :=
  { l with className := qualifiedName package l.className }

def Entity.qualified (package : String) (e : Entity) : Entity :=
  { e with
    className := qualifiedName package e.className
    idClass := e.idClass.map (qualifiedName package)
    associations := e.associations.map (AssociationAttribute.qualified package)
    entityListeners := e.entityListeners.map (Listener.qualified package) }

/-! ## Global declarations -/

def NamedNativeQuery.qualified (package : String) (q : NamedNativeQuery) : NamedNativeQuery :=
  { q with resultClass := q.resultClass.map (qualifiedName package) }

def EntityResult.qualified (package : String) (r : EntityResult) : EntityResult :=
  { r with entityClass := r.entityClass.map (qualifiedName package) }

def ResultSetMapping.qualified (package : String) (m : ResultSetMapping) : ResultSetMapping :=
  { m with entities := m.entities.map (EntityResult.qualified package) }

def GlobalDeclarations.qualified (package : String) (g : GlobalDeclarations) :
    GlobalDeclarations :=
  { g with
    namedNativeQueries := g.namedNativeQueries.map (NamedNativeQuery.qualified package)
    sqlResultSetMappings := g.sqlResultSetMappings.map (ResultSetMapping.qualified package) }

/-- The document with full class names; its defaults are left as they are. -/
def Document.qualified (package : String) (doc : Document) : Document :=
  { doc with
    entities := doc.entities.map (Entity.qualified package)
    globals := doc.globals.qualified package }

/-! ## What qualified declarations stand for -/

section

variable {d : Defaults} {package : String} (hpackage : d.package = some package)
  (hne : package ≠ "") (path : ClassPath)
include hpackage hne

theorem AssociationAttribute.annotation_qualified (a : AssociationAttribute) (site : Site) :
    AssociationAttribute.annotation (a.qualified package) path d site =
      a.annotation path d site := by
  cases htype : a.associationType with
  | some type =>
    simp only [AssociationAttribute.annotation, qualified, htype,
      path.resolve?_qualifiedName hpackage hne]
    rfl
  | none => simp only [AssociationAttribute.annotation, qualified, htype, Option.isNone_map]

theorem NamedNativeQuery.annotation_qualified (q : NamedNativeQuery) :
    NamedNativeQuery.annotation (q.qualified package) path d = q.annotation path d := by
  rw [NamedNativeQuery.annotation, qualified, path.resolve?_qualifiedName hpackage hne]
  rfl

theorem EntityResult.annotation_qualified (r : EntityResult) :
    EntityResult.annotation (r.qualified package) path d = r.annotation path d := by
  rw [EntityResult.annotation, qualified, path.resolve?_qualifiedName hpackage hne]
  rfl

theorem ResultSetMapping.annotation_qualified (m : ResultSetMapping) :
    ResultSetMapping.annotation (m.qualified package) path d = m.annotation path d := by
  have hentities : ((m.entities.map (EntityResult.qualified package)).mapM fun r =>
      r.annotation path d) = m.entities.mapM fun r => r.annotation path d :=
    Outcome.mapM_congr (List.forall₂_map_left_iff.2 (List.forall₂_same.2 fun r _ =>
      r.annotation_qualified hpackage hne path))
  rw [ResultSetMapping.annotation, qualified, hentities]
  rfl

/-- **Global declarations are built alike with full class names.** -/
theorem GlobalDeclarations.build_qualified (g : GlobalDeclarations) :
    (g.qualified package).build path d = g.build path d := by
  have hannotations : (g.qualified package).annotations path d = g.annotations path d := by
    simp only [annotations, qualified, List.map_map, Function.comp_def,
      NamedNativeQuery.annotation_qualified hpackage hne,
      ResultSetMapping.annotation_qualified hpackage hne]
  rw [build, hannotations, build]

end

end Declaration

end MappingMetadata
