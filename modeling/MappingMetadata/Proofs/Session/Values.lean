import MappingMetadata.Proofs.Entity.Values
import MappingMetadata.Proofs.Session.Staging
import MappingMetadata.Proofs.Session.Steps

/-!
# The values in finished metadata

**Theorem (`every_finish`).** What entries ensure of the values that they state holds throughout
the metadata of a session that started empty, whatever steps it has run, as long as the class path
yields only classes for which it is ensured.

The induction goes over the steps of a run. Index and registry are both part of the invariant, but
they do not depend on each other: a step that fails keeps both, and merging reads the index only.
-/

namespace MappingMetadata

open Declaration

variable {P : String → Prop} {Q : Value → Prop}

/-- All annotations in finished metadata, those on classes and the global ones. -/
def Metadata.annotations (m : Metadata) : List Annotation :=
  m.classes.values.flatMap ClassEntry.toList ++ m.globals

/-! ## The registry -/

namespace Globals

/-- Every declaration has the property throughout. -/
def Every (Q : Value → Prop) (g : Globals) : Prop :=
  ∀ k name a, g.get? k name = some a → a.Every Q

variable {g : Globals}

theorem Every.registerBuilt (h : g.Every Q) {bs : List BuiltGlobal}
    (hbs : ∀ b ∈ bs, b.annotation.Every Q) : (g.registerBuilt bs).Every Q := by
  intro k name a ha
  rw [get?_registerBuilt, Option.or_eq_some_iff] at ha
  rcases ha with ha | ⟨-, ha⟩
  · obtain ⟨b, hb, -, -, rfl⟩ := BuiltGlobal.exists_of_latest? ha
    exact hbs b hb
  · exact h k name a ha

/-- Wrapping declarations keeps what holds throughout. -/
theorem Every.finish (hg : g.Every Q) (h : Entry.Ensures P Q) : ∀ a ∈ g.finish, a.Every Q := by
  intro a ha
  obtain ⟨k, -, ha⟩ := List.mem_filterMap.1 ha
  refine Annotation.every_ofItems h (fun b hb site => ?_) ha
  obtain ⟨name, hname⟩ := (Dict.mem_values_iff _ b).1 hb
  exact Annotation.every_withSite site |>.2 (hg k name b hname)

end Globals

namespace Session

/-! ## Staging -/

section Staging

variable (h : Entry.Ensures P Q)

include h

theorem every_enrolledAll (d : Defaults) (es : List Entity) {ix : Index} (hix : ix.Every Q) :
    (enrolledAll d es ix).Every Q := by
  unfold enrolledAll
  induction es generalizing ix with
  | nil => exact hix
  | cons e es ih => exact ih (e.every_enrolled h d hix)

theorem every_writesAll {ctx : Context} (hpath : ctx.classPath.Within P) {es : List Entity}
    {ix : Index} (hix : ix.Every Q) {as : List Annotation} (has : writesAll ctx es ix = .ok as) :
    (ix.writeAll as).Every Q := by
  induction es generalizing ix as with
  | nil =>
    cases has
    exact hix
  | cons e es ih =>
    obtain ⟨bs, rest, hbs, hrest, rfl⟩ := writesAll_cons_eq_ok_iff.1 has
    rw [Index.writeAll_append]
    exact ih (hix.writeAll (Entity.every_writes h hpath hix hbs)) hrest

theorem every_stage {s : Session} (hpath : s.classPath.Within P) (hs : s.index.Every Q)
    {d : Defaults} {es : List Entity} {n : Nat} {ix : Index} (hix : s.stage d es = .ok (n, ix)) :
    ix.Every Q := by
  obtain ⟨-, as, has, -, rfl⟩ := stage_eq_ok_iff.1 hix
  have henrolled : (enrolledAll d es s.index).Every Q := every_enrolledAll h d es hs
  have hcontext : (s.context d).classPath.Within P := hpath
  exact every_writesAll h hcontext henrolled has

end Staging

/-! ## Running -/

/-- Index and registry have the property throughout. -/
structure Every (Q : Value → Prop) (s : Session) : Prop where
  index : s.index.Every Q
  globals : s.globals.Every Q

variable {s : Session}

/-- One step keeps what holds throughout. -/
theorem Every.step (hs : s.Every Q) (h : Entry.Ensures P Q) (hpath : s.classPath.Within P)
    (t : Step) : (s.step t).2.Every Q := by
  have ht := s.stepped t
  generalize s.step t = r at ht ⊢
  cases ht with
  | failed => exact hs
  | document hbuilt hstage =>
    exact ⟨every_stage h hpath hs.index hstage,
      hs.globals.registerBuilt (GlobalDeclarations.every_build h hpath hbuilt)⟩
  | entity hstage => exact ⟨every_stage h hpath hs.index hstage, hs.globals⟩
  | globals hbuilt =>
    exact ⟨hs.index, hs.globals.registerBuilt (GlobalDeclarations.every_build h hpath hbuilt)⟩

theorem Every.run (hs : s.Every Q) (h : Entry.Ensures P Q) (hpath : s.classPath.Within P)
    (ts : List Step) : (s.run ts).2.Every Q := by
  induction ts generalizing s with
  | nil => exact hs
  | cons t ts ih =>
    rw [run_cons]
    exact ih (hs.step h hpath t) ((s.settings_step t).2 ▸ hpath)

/-- **What entries ensure holds throughout finished metadata.** -/
theorem every_finish (h : Entry.Ensures P Q) {path : ClassPath} (hpath : path.Within P)
    (settings : Settings) (ts : List Step) :
    ∀ a ∈ (((start settings).withClassPath path).run ts).2.finish.annotations, a.Every Q := by
  have hstart : ((start settings).withClassPath path).Every Q :=
    ⟨Index.every_empty, fun k name a ha => by cases ha⟩
  have hrun := hstart.run h hpath ts
  intro a ha
  rcases List.mem_append.1 ha with ha | ha
  · exact hrun.index a ha
  · exact hrun.globals.finish h a ha

end Session

end MappingMetadata
