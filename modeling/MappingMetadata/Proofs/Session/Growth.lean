import MappingMetadata.Proofs.Globals.Names
import MappingMetadata.Proofs.Session.Enrolling
import MappingMetadata.Proofs.Session.Steps

/-!
# Growth of sessions

A session works by removing annotations and adding others, by putting declarations in the place of
older ones, and on copies of its index that it may throw away. In spite of all this it only grows.

**Theorem (`run_grows`).** Whatever steps are run, and whether they succeed or fail: the classes,
the kinds of each class and the names of each kind of global declaration that the session had stay
in front and in their order, and a class that was complete stays complete.

A step takes over a staged index or built declarations, or nothing at all (`Stepped`); each of the
three grows, and growth is transitive.
-/

namespace MappingMetadata.Session

open Declaration

/-- The session has grown: nothing that it lists has gone or moved, and no flag is lost. -/
structure Grows (s s' : Session) : Prop where
  index : s.index.Extends s'.index
  names : ∀ k, s.globals.names k <+: s'.globals.names k

theorem grows_refl (s : Session) : s.Grows s :=
  ⟨s.index.extends_refl, fun _ => List.prefix_refl _⟩

theorem Grows.trans {s s' s'' : Session} (h : s.Grows s') (h' : s'.Grows s'') : s.Grows s'' :=
  ⟨h.index.trans h'.index, fun k => (h.names k).trans (h'.names k)⟩

/-- Staging enrols entities and writes annotations, both on a copy that extends the index. -/
theorem extends_stage {s : Session} {d : Defaults} {es : List Entity} {n : Nat} {ix : Index}
    (h : s.stage d es = .ok (n, ix)) : s.index.Extends ix := by
  obtain ⟨-, as, -, -, rfl⟩ := stage_eq_ok_iff.1 h
  exact (extends_enrolledAll d es s.index).trans (Index.extends_writeAll _ as)

theorem grows_step (s : Session) (t : Step) : s.Grows (s.step t).2 := by
  have h := s.stepped t
  generalize s.step t = r at h ⊢
  cases h with
  | failed t e => exact s.grows_refl
  | document hbuilt hstage =>
    exact ⟨extends_stage hstage, s.globals.names_prefix_registerBuilt _⟩
  | entity hstage => exact ⟨extends_stage hstage, fun _ => List.prefix_refl _⟩
  | globals hbuilt => exact ⟨s.index.extends_refl, s.globals.names_prefix_registerBuilt _⟩

theorem grows_run (s : Session) (ts : List Step) : s.Grows (s.run ts).2 := by
  induction ts generalizing s with
  | nil => exact s.grows_refl
  | cons t ts ih => exact (s.grows_step t).trans (ih (s.step t).2)

theorem run_append (s : Session) (ts us : List Step) :
    (s.run (ts ++ us)).2 = ((s.run ts).2.run us).2 := by
  induction ts generalizing s with
  | nil => rfl
  | cons t ts ih => exact ih (s.step t).2

/-- **A session only grows**: with each step, and from any point of a run to any later one. -/
theorem run_grows (s : Session) :
    (∀ t, s.Grows (s.step t).2) ∧ ∀ ts us, (s.run ts).2.Grows (s.run (ts ++ us)).2 := by
  refine ⟨s.grows_step, fun ts us => ?_⟩
  rw [run_append]
  exact grows_run _ us

end MappingMetadata.Session
