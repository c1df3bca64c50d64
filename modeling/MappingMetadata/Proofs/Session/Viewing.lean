import MappingMetadata.Proofs.Entity.Viewing
import MappingMetadata.Proofs.Session.Staging
import MappingMetadata.Proofs.Session.Steps

/-!
# Documents that look alike

**Theorem (`document_alike`).** Let two sessions hold the same registry and indexes that look alike,
and let each be given a document. If the documents build the same global declarations, each under
its own defaults, and have entities that look alike, then either both are applied with the same
report, to leave the same registry and indexes that look alike again, or both fail for the same
cause and leave their sessions as they were.

Where a view shows everything, two documents for one session do exactly the same
(`step_document_congr`).
-/

namespace MappingMetadata.Session

open Declaration

variable {F : Annotation → Annotation} {ctx ctx' : Context}

/-- Enrolling entities that look alike, one after another. -/
theorem view_enrolledAll (hF : Annotation.View F) {es es' : List Entity}
    (h : List.Forall₂ (Entity.Alike F ctx ctx') es es') {ix ix' : Index}
    (hix : ix.view F = ix'.view F) :
    (enrolledAll ctx.defaults es ix).view F = (enrolledAll ctx'.defaults es' ix').view F := by
  induction h generalizing ix ix' with
  | nil => exact hix
  | cons he _ ih => exact ih (Entity.view_enrolled hF hix he)

/-- Processing entities that look alike, one after another. -/
theorem writesAll_alike (hF : ctx.Faithful F ctx') {es es' : List Entity}
    (h : List.Forall₂ (Entity.Alike F ctx ctx') es es') {ix ix' : Index}
    (hix : ix.view F = ix'.view F) :
    Outcome.Alike (Piece.LooksAlike F) (writesAll ctx es ix) (writesAll ctx' es' ix') := by
  induction h generalizing ix ix' with
  | nil => exact .ok rfl
  | cons he _ ih =>
    rw [writesAll, writesAll, he.className]
    refine (Entity.writes_alike hF hix he _).bind fun as bs hab => ?_
    exact (ih (hab.view_writeAll hF.view hix)).bind fun cs ds hcd => .ok (hab.append hcd)

/-- Staging entities that look alike. -/
theorem stage_alike {s s' : Session} {d d' : Defaults}
    (hF : (s.context d).Faithful F (s'.context d')) {es es' : List Entity}
    (h : List.Forall₂ (Entity.Alike F (s.context d) (s'.context d')) es es')
    (hix : s.index.view F = s'.index.view F) :
    Outcome.Alike (fun p q => p.1 = q.1 ∧ p.2.view F = q.2.view F) (s.stage d es)
      (s'.stage d' es') := by
  have hblank : (es.any fun e => Text.isBlank e.className) =
      es'.any fun e => Text.isBlank e.className := by
    induction h with
    | nil => rfl
    | cons he _ ih => rw [List.any_cons, List.any_cons, he.isBlank, ih]
  have henrolled : (enrolledAll d es s.index).view F = (enrolledAll d' es' s'.index).view F :=
    view_enrolledAll hF.view h hix
  rw [stage_eq, stage_eq, stagedWrites, stagedWrites, hblank]
  split
  · exact .error _
  · exact (writesAll_alike hF h henrolled).map fun as bs hab =>
      ⟨hab.length_eq, hab.view_writeAll hF.view henrolled⟩

/-- What two sessions that look alike have in common. -/
structure LooksAlike (F : Annotation → Annotation) (s s' : Session) : Prop where
  index : s.index.view F = s'.index.view F
  globals : s.globals = s'.globals

/-- **Documents that look alike are applied alike.** -/
theorem document_alike {s s' : Session} {doc doc' : Document}
    (hF : (s.context (s.defaultsFor doc)).Faithful F (s'.context (s'.defaultsFor doc')))
    (hglobals : doc.globals.build s.classPath (s.defaultsFor doc) =
      doc'.globals.build s'.classPath (s'.defaultsFor doc'))
    (hentities : List.Forall₂ (Entity.Alike F (s.context (s.defaultsFor doc))
      (s'.context (s'.defaultsFor doc'))) doc.entities doc'.entities)
    (h : s.LooksAlike F s') :
    (s.step (.document doc)).1 = (s'.step (.document doc')).1 ∧
      (s.step (.document doc)).2.LooksAlike F (s'.step (.document doc')).2 := by
  have hstage := stage_alike hF hentities h.index
  rw [step_document, step_document, ← hglobals]
  cases doc.globals.build s.classPath (s.defaultsFor doc) with
  | error e => exact ⟨rfl, h⟩
  | ok built =>
    dsimp only
    generalize s.stage (s.defaultsFor doc) doc.entities = x at hstage ⊢
    generalize s'.stage (s'.defaultsFor doc') doc'.entities = y at hstage ⊢
    cases hstage with
    | error e => exact ⟨rfl, h⟩
    | @ok p q hpq =>
      refine ⟨?_, hpq.2, ?_⟩
      · dsimp only
        rw [hpq.1, hentities.length_eq]
      · dsimp only
        rw [h.globals]

/-- **Documents that differ in nothing that is read do the same.** -/
theorem step_document_congr {s : Session} {doc doc' : Document}
    (hdefaults : doc.defaults = doc'.defaults)
    (hglobals : doc.globals.build s.classPath (s.defaultsFor doc) =
      doc'.globals.build s.classPath (s.defaultsFor doc))
    (hentities : List.Forall₂ (Entity.Alike id (s.context (s.defaultsFor doc))
      (s.context (s.defaultsFor doc))) doc.entities doc'.entities) :
    s.step (.document doc) = s.step (.document doc') := by
  have hd : s.defaultsFor doc' = s.defaultsFor doc := by
    rw [defaultsFor, defaultsFor, hdefaults]
  have hstage : s.stage (s.defaultsFor doc) doc.entities =
      s.stage (s.defaultsFor doc) doc'.entities := by
    refine Outcome.alike_eq_iff.1 ?_
    refine (stage_alike (Context.faithful_id _) hentities rfl).imp fun p q hpq => ?_
    rw [Index.view_id, Index.view_id] at hpq
    exact Prod.ext hpq.1 hpq.2
  rw [step_document, step_document, hd, hglobals, hstage, hentities.length_eq]

end MappingMetadata.Session
