import MappingMetadata.Proofs.Entity.Canonical
import MappingMetadata.Proofs.Session.Staging
import MappingMetadata.Proofs.Session.Steps

/-!
# Sessions keep their index canonical

**Theorem (`run_canonical`).** A session that starts with an empty index has a canonical index
after every step, whatever documents, entities and global declarations it is given, under every
setting and class path.

The induction goes from the annotations of one entity (`Entity.sound_writes`) over the entities of
a step to the steps of a run. It cannot be done for one part of `Index.Canonical` alone: that the
members of a wrapper have names is needed to merge it, and merging makes the next wrapper.
-/

namespace MappingMetadata.Session

open Declaration

theorem canonical_enrolledAll {dedupe : Bool} (d : Defaults) (es : List Entity) {ix : Index}
    (hix : ix.Canonical dedupe) : (enrolledAll d es ix).Canonical dedupe := by
  unfold enrolledAll
  induction es generalizing ix with
  | nil => exact hix
  | cons e es ih => exact ih (e.canonical_enrolled d hix)

theorem canonical_writesAll {ctx : Context} {es : List Entity} {ix : Index} {as : List Annotation}
    (hix : ix.Canonical ctx.dedupe) (h : writesAll ctx es ix = .ok as) :
    (ix.writeAll as).Canonical ctx.dedupe := by
  induction es generalizing ix as with
  | nil =>
    cases h
    exact hix
  | cons e es ih =>
    obtain ⟨bs, rest, hbs, hrest, rfl⟩ := writesAll_cons_eq_ok_iff.1 h
    rw [Index.writeAll_append]
    exact ih (hix.writeAll (Entity.sound_writes hix hbs)) hrest

theorem canonical_stage {s : Session} {d : Defaults} {es : List Entity} {n : Nat} {ix : Index}
    (hs : s.index.Canonical s.settings.dedupeOverrides) (h : s.stage d es = .ok (n, ix)) :
    ix.Canonical s.settings.dedupeOverrides := by
  obtain ⟨-, as, has, -, rfl⟩ := stage_eq_ok_iff.1 h
  have henrolled : (enrolledAll d es s.index).Canonical (s.context d).dedupe :=
    canonical_enrolledAll d es hs
  exact canonical_writesAll henrolled has

/-- One step keeps the index canonical. -/
theorem canonical_step {s : Session} (hs : s.index.Canonical s.settings.dedupeOverrides)
    (t : Step) : (s.step t).2.index.Canonical s.settings.dedupeOverrides := by
  have h := s.stepped t
  generalize s.step t = r at h ⊢
  cases h with
  | failed => exact hs
  | document _ hstage => exact canonical_stage hs hstage
  | entity hstage => exact canonical_stage hs hstage
  | globals => exact hs

theorem canonical_run {s : Session} (hs : s.index.Canonical s.settings.dedupeOverrides)
    (ts : List Step) : (s.run ts).2.index.Canonical s.settings.dedupeOverrides := by
  induction ts generalizing s with
  | nil => exact hs
  | cons t ts ih =>
    rw [run_cons]
    have hset := (s.settings_step t).1
    rw [← hset]
    exact ih (hset ▸ canonical_step hs t)

/-- **Sessions keep their index canonical.** It is so after every run, and the steps of a run so
far are a run. -/
theorem run_canonical (settings : Settings) (path : ClassPath) (ts : List Step) :
    (((start settings).withClassPath path).run ts).2.index.Canonical settings.dedupeOverrides :=
  canonical_run (s := (start settings).withClassPath path) Index.canonical_empty ts

end MappingMetadata.Session
