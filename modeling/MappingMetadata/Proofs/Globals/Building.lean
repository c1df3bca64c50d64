import MappingMetadata.Globals.Operation
import MappingMetadata.Proofs.Declaration.Pruning
import MappingMetadata.Proofs.Globals.Names

/-!
# Building one declaration after another

The global declarations of a document form one list, kind by kind (`GlobalDeclarations.toList`),
and each of them is built by itself. A declaration is *acceptable* when it has a name and all
classes that it refers to can be loaded. If it is not, it fails (`GlobalDeclaration.Fails`) with
the first class that cannot be loaded, and only if there is no such class for want of a name.

**Theorem (`build_all_or_none`).** Building succeeds just when all declarations are acceptable, and
then yields one annotation for each, in their order. Otherwise the error is that of the first
declaration that is not acceptable, and a registry stays as it was.
-/

namespace MappingMetadata

namespace Declaration

/-! ## Single declarations -/

/-- A declaration of one of the global kinds. -/
inductive GlobalDeclaration where
  | tableGenerator (t : TableGenerator)
  | sequenceGenerator (s : SequenceGenerator)
  | namedQuery (q : NamedQuery)
  | namedNativeQuery (q : NamedNativeQuery)
  | sqlResultSetMapping (m : ResultSetMapping)

/-- All declarations, kind by kind. -/
def GlobalDeclarations.toList (g : GlobalDeclarations) : List GlobalDeclaration :=
  g.tableGenerators.map .tableGenerator ++ g.sequenceGenerators.map .sequenceGenerator ++
    g.namedQueries.map .namedQuery ++ g.namedNativeQueries.map .namedNativeQuery ++
    g.sqlResultSetMappings.map .sqlResultSetMapping

namespace GlobalDeclaration

def kind : GlobalDeclaration → GlobalKind
  | tableGenerator _ => .tableGenerator
  | sequenceGenerator _ => .sequenceGenerator
  | namedQuery _ => .namedQuery
  | namedNativeQuery _ => .namedNativeQuery
  | sqlResultSetMapping _ => .sqlResultSetMapping

/-- The declared name, which may be empty. -/
def name? : GlobalDeclaration → Option String
  | tableGenerator t => t.name
  | sequenceGenerator s => s.name
  | namedQuery q => q.name
  | namedNativeQuery q => q.name
  | sqlResultSetMapping m => m.name

/-- The classes that are referred to, each with its role; an empty name refers to none. -/
def references : GlobalDeclaration → List (String × String)
  | namedNativeQuery q => (nonempty? q.resultClass).toList.map fun c => (c, "named native query")
  | sqlResultSetMapping m =>
    m.entities.flatMap fun r => (nonempty? r.entityClass).toList.map fun c => (c, "entity result")
  | _ => []

def annotation (path : ClassPath) (d : Defaults) : GlobalDeclaration → Outcome Annotation
  | tableGenerator t => .ok t.annotation
  | sequenceGenerator s => .ok s.annotation
  | namedQuery q => .ok q.annotation
  | namedNativeQuery q => q.annotation path d
  | sqlResultSetMapping m => m.annotation path d

/-- The declaration by itself, ready to be registered. -/
def build (path : ClassPath) (d : Defaults) (x : GlobalDeclaration) : Outcome BuiltGlobal := do
  BuiltGlobal.named x.kind (← x.annotation path d)

variable (path : ClassPath) (d : Defaults) (x : GlobalDeclaration)

/-- A name is declared, and it is not empty. -/
def Named : Prop := ∃ name, x.name? = some name ∧ name ≠ ""

/-- What has to be the case for a declaration to be built. -/
structure Acceptable : Prop where
  named : x.Named
  loads : ∀ p ∈ x.references, path.Loads d p.1

/-- What a declaration is built to. -/
structure Builds (b : BuiltGlobal) : Prop where
  kind : b.kind = x.kind
  name : x.name? = some b.name
  nonempty : b.name ≠ ""
  annotation : x.annotation path d = .ok b.annotation
  proper : b.Proper

/-- Why a declaration is not built. -/
inductive Fails : Error → Prop
  /-- The first class that cannot be loaded, even if there is no name either. -/
  | unresolved {before after : List (String × String)} {p : String × String}
    (h : x.references = before ++ p :: after) (hbefore : ∀ q ∈ before, path.Loads d q.1)
    (hp : ¬ path.Loads d p.1) : Fails (.unresolvedClass (d.qualify p.1) p.2)
  | nameless (hloads : ∀ p ∈ x.references, path.Loads d p.1) (hname : ¬ x.Named) :
    Fails (.missingName x.kind.scalar)

end GlobalDeclaration

/-! ## Classes that cannot be loaded -/

/-- The error for the first class that cannot be loaded. -/
def unresolved? (path : ClassPath) (d : Defaults) (refs : List (String × String)) : Option Error :=
  (refs.find? fun p => ¬ path.Loads d p.1).map fun p => .unresolvedClass (d.qualify p.1) p.2

variable {path : ClassPath} {d : Defaults}

theorem unresolved?_flatMap {α : Type} (f : α → List (String × String)) (xs : List α) :
    unresolved? path d (xs.flatMap f) = xs.findSome? fun x => unresolved? path d (f x) := by
  unfold unresolved?
  rw [List.find?_flatMap, List.map_findSome?]
  rfl

theorem unresolved?_eq_none_iff {refs : List (String × String)} :
    unresolved? path d refs = none ↔ ∀ p ∈ refs, path.Loads d p.1 := by
  simp [unresolved?]

theorem unresolved?_eq_some_iff {refs : List (String × String)} {e : Error} :
    unresolved? path d refs = some e ↔ ∃ before p after, refs = before ++ p :: after ∧
      (∀ q ∈ before, path.Loads d q.1) ∧ ¬ path.Loads d p.1 ∧
        e = .unresolvedClass (d.qualify p.1) p.2 := by
  unfold unresolved?
  rw [Option.map_eq_some_iff]
  simp only [List.find?_eq_some_iff_append, decide_eq_true_eq]
  constructor
  · rintro ⟨p, ⟨hp, before, after, hrefs, hbefore⟩, rfl⟩
    exact ⟨before, p, after, hrefs, fun q hq => by simpa using hbefore q hq, hp, rfl⟩
  · rintro ⟨before, p, after, hrefs, hbefore, hp, rfl⟩
    exact ⟨p, ⟨hp, before, after, hrefs, fun q hq => by simpa using hbefore q hq⟩, rfl⟩

theorem error?_resolve? (o : Option String) (role : String) :
    Outcome.error? (path.resolve? d o role) =
      unresolved? path d ((nonempty? o).toList.map fun c => (c, role)) := by
  rw [ClassPath.error?_resolve?]
  cases nonempty? o with
  | none => rfl
  | some c =>
    rw [Option.bind_some, ClassPath.error?_resolve]
    change (if path.Loads d c then none else some _) = _
    by_cases hc : path.Loads d c <;> simp [unresolved?, hc]

theorem NamedNativeQuery.error?_annotation (q : NamedNativeQuery) :
    Outcome.error? (q.annotation path d) =
      unresolved? path d (GlobalDeclaration.namedNativeQuery q).references := by
  unfold annotation
  rw [Outcome.error?_bind (e := none) _ fun _ => rfl, Option.or_none]
  exact error?_resolve? q.resultClass "named native query"

theorem EntityResult.error?_annotation (r : EntityResult) :
    Outcome.error? (r.annotation path d) =
      unresolved? path d ((nonempty? r.entityClass).toList.map fun c => (c, "entity result")) := by
  unfold annotation
  rw [Outcome.error?_bind (e := none) _ fun _ => rfl, Option.or_none]
  exact error?_resolve? r.entityClass "entity result"

theorem ResultSetMapping.error?_annotation (m : ResultSetMapping) :
    Outcome.error? (m.annotation path d) =
      unresolved? path d (GlobalDeclaration.sqlResultSetMapping m).references := by
  unfold annotation
  rw [Outcome.error?_bind (e := none) _ fun _ => rfl, Option.or_none, Outcome.error?_mapM,
    GlobalDeclaration.references, unresolved?_flatMap]
  simp only [EntityResult.error?_annotation]

namespace GlobalDeclaration

variable {x : GlobalDeclaration}

theorem error?_annotation (x : GlobalDeclaration) :
    Outcome.error? (x.annotation path d) = unresolved? path d x.references := by
  cases x with
  | tableGenerator t | sequenceGenerator t | namedQuery t => rfl
  | namedNativeQuery q => exact q.error?_annotation
  | sqlResultSetMapping m => exact m.error?_annotation

/-! ## What is built -/

/-- The annotation of a declaration is of its kind, under its name and on no site. -/
theorem of_annotation {a : Annotation} (h : x.annotation path d = .ok a) :
    a.kind = x.kind.scalar ∧ a.name? = nonempty? x.name? ∧ a.site = none := by
  cases x with
  | tableGenerator t =>
    cases h
    exact ⟨rfl, Annotation.name?_ofEntries (by simp [TableGenerator.entries, Assoc.keys]) rfl, rfl⟩
  | sequenceGenerator s =>
    cases h
    exact ⟨rfl, Annotation.name?_ofEntries (by simp [SequenceGenerator.entries, Assoc.keys]) rfl,
      rfl⟩
  | namedQuery q =>
    cases h
    exact ⟨rfl, Annotation.name?_ofEntries (by simp [NamedQuery.entries, Assoc.keys]) rfl, rfl⟩
  | namedNativeQuery q =>
    obtain ⟨_, -, h⟩ := Outcome.bind_eq_ok_iff.1 h
    cases h
    exact ⟨rfl, Annotation.name?_ofEntries (by simp [NamedNativeQuery.entries, Assoc.keys]) rfl,
      rfl⟩
  | sqlResultSetMapping m =>
    obtain ⟨_, -, h⟩ := Outcome.bind_eq_ok_iff.1 h
    cases h
    exact ⟨rfl, Annotation.name?_ofEntries (by simp [ResultSetMapping.entries, Assoc.keys]) rfl,
      rfl⟩

theorem build_eq_ok_iff {b : BuiltGlobal} : x.build path d = .ok b ↔ x.Builds path d b := by
  constructor
  · intro h
    obtain ⟨a, ha, hnamed⟩ := Outcome.bind_eq_ok_iff.1 h
    obtain ⟨name, hname, rfl⟩ := BuiltGlobal.named_eq_ok hnamed
    obtain ⟨hkind, hown, hsite⟩ := of_annotation ha
    obtain ⟨hdeclared, hne⟩ := nonempty?_eq_some_iff.1 (hown.symm.trans hname)
    exact ⟨rfl, hdeclared, hne, ha, hkind, hname, hsite⟩
  · rintro ⟨hkind, -, -, ha, hproper⟩
    refine Outcome.bind_eq_ok_iff.2 ⟨b.annotation, ha, ?_⟩
    rw [BuiltGlobal.named, hproper.name, ← hkind]

/-- A declaration fails with the first class that cannot be loaded, or else without a name. -/
theorem error?_build (x : GlobalDeclaration) : Outcome.error? (x.build path d) =
    (unresolved? path d x.references).or
      (if (nonempty? x.name?).isSome then none else some (.missingName x.kind.scalar)) := by
  rw [← error?_annotation, build]
  cases h : x.annotation path d with
  | error e => rfl
  | ok a =>
    obtain ⟨hkind, hname, -⟩ := of_annotation h
    change Outcome.error? (BuiltGlobal.named x.kind a) = _
    rw [BuiltGlobal.named, hname, hkind]
    cases nonempty? x.name? <;> rfl

theorem named_iff_isSome : x.Named ↔ (nonempty? x.name?).isSome := by
  rw [Option.isSome_iff_exists]
  exact exists_congr fun name => nonempty?_eq_some_iff.symm

theorem exists_build_iff : (∃ b, x.build path d = .ok b) ↔ x.Acceptable path d := by
  rw [← Outcome.error?_eq_none_iff, error?_build, Option.or_eq_none_iff, unresolved?_eq_none_iff]
  simp only [ite_eq_left_iff, reduceCtorEq, imp_false, not_not, ← named_iff_isSome]
  exact ⟨fun h => ⟨h.2, h.1⟩, fun h => ⟨h.loads, h.named⟩⟩

theorem build_eq_error_iff {e : Error} : x.build path d = .error e ↔ x.Fails path d e := by
  rw [← Outcome.error?_eq_some_iff, error?_build, Option.or_eq_some_iff, unresolved?_eq_some_iff,
    unresolved?_eq_none_iff]
  constructor
  · rintro (⟨before, p, after, hrefs, hbefore, hp, rfl⟩ | ⟨hloads, hname⟩)
    · exact .unresolved hrefs hbefore hp
    · obtain ⟨hnameless, he⟩ := Option.ite_none_left_eq_some.1 hname
      cases he
      exact .nameless hloads (named_iff_isSome.not.2 hnameless)
  · rintro (⟨hrefs, hbefore, hp⟩ | ⟨hloads, hname⟩)
    · exact Or.inl ⟨_, _, _, hrefs, hbefore, hp, rfl⟩
    · exact Or.inr ⟨hloads, if_neg (named_iff_isSome.not.1 hname)⟩

end GlobalDeclaration

/-! ## All declarations -/

namespace GlobalDeclarations

theorem build_eq_mapM (g : GlobalDeclarations) :
    g.build path d = g.toList.mapM (GlobalDeclaration.build path d) := by
  have hannotations : g.annotations path d =
      g.toList.map fun x => (x.kind, x.annotation path d) := by
    simp only [annotations, toList, List.map_append, List.map_map]
    rfl
  rw [build, hannotations, List.mapM_map]
  rfl

/-- **All global declarations are built, or none is.** Building succeeds just when every declaration
has a name and refers only to classes that can be loaded. Each declaration is then built to one
annotation of its kind and under its name, in the order of the declarations. Otherwise building
fails as the first declaration does that is not acceptable, and a registry stays as it was. -/
theorem build_all_or_none (g : GlobalDeclarations) (path : ClassPath) (d : Defaults) :
    ((∃ bs, g.build path d = .ok bs) ↔ ∀ x ∈ g.toList, x.Acceptable path d) ∧
      (∀ bs, g.build path d = .ok bs ↔ List.Forall₂ (fun x b => x.Builds path d b) g.toList bs) ∧
      (∀ e, g.build path d = .error e ↔ ∃ before x after, g.toList = before ++ x :: after ∧
        (∀ y ∈ before, y.Acceptable path d) ∧ x.Fails path d e) ∧
      ∀ (r r' : Globals) (e : Error), r.perform (.declare g path d) = (.error e, r') ↔
        g.build path d = .error e ∧ r' = r := by
  refine ⟨?_, fun bs => ?_, fun e => ?_, fun r r' e => ?_⟩
  · simp only [build_eq_mapM, Outcome.exists_mapM_iff, GlobalDeclaration.exists_build_iff]
  · simp only [build_eq_mapM, Outcome.mapM_eq_ok_iff, GlobalDeclaration.build_eq_ok_iff]
  · simp only [build_eq_mapM, Outcome.mapM_eq_error_iff, GlobalDeclaration.exists_build_iff,
      GlobalDeclaration.build_eq_error_iff]
  · rw [Globals.perform]
    cases g.build path d with
    | ok bs => simp
    | error e' => simp [eq_comm]

end GlobalDeclarations

end Declaration

end MappingMetadata
