import MappingMetadata.Error

/-!
# Changes

A change works on a state in place and may fail half-way. Nothing is undone by itself: a change
that fails leaves the state as it stood when it failed. An operation whose failure must leave no
trace carries its change out on a copy (`Change.onCopy`).
-/

namespace MappingMetadata

/-- An operation on a state that may fail; the state is kept in either case. -/
abbrev Change (σ α : Type) := EStateM Error σ α

namespace Change

variable {σ τ α β : Type}

/-- A result that neither reads nor changes the state. -/
def lift (r : Outcome α) : Change σ α := fun s =>
  match r with
  | .ok a => .ok a s
  | .error e => .error e s

instance : MonadLift Outcome (Change σ) := ⟨lift⟩

/-- Carry a change out on a copy; a failing change takes the copy with it. -/
def onCopy (m : Change τ α) (copy : τ) : Outcome (α × τ) :=
  match m.run copy with
  | .ok a t => .ok (a, t)
  | .error e _ => .error e

@[simp] theorem run_liftM (r : Outcome α) (s : σ) :
    (liftM r : Change σ α).run s = match r with
      | .ok a => .ok a s
      | .error e => .error e s := rfl

@[simp] theorem run_map (f : α → β) (m : Change σ α) (s : σ) :
    (f <$> m).run s = match m.run s with
      | .ok a s' => .ok (f a) s'
      | .error e s' => .error e s' := by
  simp only [EStateM.run, Functor.map, EStateM.map]
  cases m s <;> rfl

/-- A composed change on a copy goes on with the copy that its first part has left. -/
theorem onCopy_bind (m : Change τ α) (f : α → Change τ β) (t : τ) :
    (m >>= f).onCopy t = m.onCopy t >>= fun p => (f p.1).onCopy p.2 := by
  unfold onCopy
  rw [EStateM.run_bind]
  cases m.run t <;> rfl

theorem onCopy_eq_ok_iff {m : Change τ α} {t : τ} {p : α × τ} :
    m.onCopy t = .ok p ↔ m.run t = .ok p.1 p.2 := by
  obtain ⟨a, t'⟩ := p
  unfold onCopy
  cases m.run t <;> simp

end Change

end MappingMetadata
