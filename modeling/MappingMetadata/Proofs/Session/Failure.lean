import MappingMetadata.Proofs.Outcome
import MappingMetadata.Proofs.Session.Steps

/-!
# Failing steps leave no trace

A step changes the session in place, and a run goes on with whatever a failing step leaves behind.
Nothing in the run itself undoes anything.

**Theorem (`run_survivors`).** Delete from a run the steps that fail. The steps that are left
report what they reported before, and the run ends in the same session. A step that fails leaves
the session as it was.

A step may fail late: in the class of the last listener of the last entity, after all entities
before it have been written. Those writes are on the copy of the index that `stage` makes, and a
step changes the session only by taking over finished results (`Stepped`). So what is left is an
induction over the run.

A strict run ends with the first step that fails. It is told from the answers of the run that goes
on (`runStrict_eq`): up to that step the two do the same.
-/

namespace MappingMetadata.Session

/-- A step either succeeds or leaves the session as it was. -/
theorem step_isOk_or (s : Session) (t : Step) : (s.step t).1.isOk ∨ (s.step t).2 = s := by
  have h := s.stepped t
  generalize s.step t = r at h ⊢
  cases h with
  | failed => exact Or.inr rfl
  | document | entity | globals => exact Or.inl rfl

/-- The steps of a run that succeed. -/
def survivors (s : Session) (ts : List Step) : List Step :=
  ((ts.zip (s.run ts).1).filter fun p => p.2.isOk).map Prod.fst

theorem survivors_cons (s : Session) (t : Step) (ts : List Step) :
    s.survivors (t :: ts) =
      if (s.step t).1.isOk then t :: (s.step t).2.survivors ts else (s.step t).2.survivors ts := by
  unfold survivors
  rw [run_cons, List.zip_cons_cons, List.filter_cons]
  split <;> rfl

/-- **Failing steps leave no trace.** Without its failing steps a run gives the same answers to
the others and ends in the same session, and a failing step leaves the session as it was. -/
theorem run_survivors (s : Session) (ts : List Step) :
    s.run (s.survivors ts) = ((s.run ts).1.filter Except.isOk, (s.run ts).2) ∧
      ∀ t, (s.step t).1.isOk ∨ (s.step t).2 = s := by
  refine ⟨?_, s.step_isOk_or⟩
  induction ts generalizing s with
  | nil => rfl
  | cons t ts ih =>
    rw [survivors_cons, run_cons, List.filter_cons]
    by_cases hok : (s.step t).1.isOk
    · rw [if_pos hok, if_pos hok, run_cons, ih]
    · have hs : (s.step t).2 = s := (s.step_isOk_or t).resolve_left hok
      rw [if_neg hok, if_neg hok, hs, ih]

/-- The copy is not spared: here the second entity fails, and the first has left its mark. -/
example : (match (mockAll { defaults := {}, classPath := .only [] }
      [{ className := "Order", transientAttributes := ["total"] },
        { className := "Invoice", idClass := some "Key" }]).run .empty with
    | .ok _ _ => []
    | .error _ ix => ix.toList.map Annotation.kind) = [.transient] := by
  decide +kernel

/-! ## Strict runs -/

theorem apply_eq (s : Session) (t : Step) :
    s.apply t = (s.step t).1.map fun answer => (answer, (s.step t).2) := by
  unfold apply Change.onCopy step
  cases (perform t).run s <;> rfl

/-- A strict run fails as the answers of the run do when they are gone through, and else ends in
the same session. -/
theorem runStrict_eq (s : Session) (ts : List Step) :
    s.runStrict ts = ((s.run ts).1.mapM id).map fun _ => (s.run ts).2 := by
  induction ts generalizing s with
  | nil => rfl
  | cons t ts ih =>
    rw [runStrict, apply_eq, run_cons, List.mapM_cons]
    cases hanswer : (s.step t).1 with
    | error e => rfl
    | ok answer =>
      refine (ih (s.step t).2).trans ?_
      cases ((s.step t).2.run ts).1.mapM id <;> rfl

/-- A strict run succeeds just when every step of the run does. -/
theorem runStrict_eq_ok_iff {s s' : Session} {ts : List Step} :
    s.runStrict ts = .ok s' ↔ (∀ answer ∈ (s.run ts).1, answer.isOk) ∧ (s.run ts).2 = s' := by
  rw [runStrict_eq, Outcome.map_eq_ok_iff, exists_and_right, Outcome.exists_mapM_iff]
  simp only [Outcome.isOk_iff, id]

/-- A strict run fails with the first error of the run. -/
theorem error?_runStrict (s : Session) (ts : List Step) :
    Outcome.error? (s.runStrict ts) = (s.run ts).1.findSome? Outcome.error? := by
  rw [runStrict_eq, Outcome.error?_map, Outcome.error?_mapM]
  rfl

end MappingMetadata.Session
