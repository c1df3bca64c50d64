import MappingMetadata.Proofs.Outcome

/-!
# Two runs that go alike

Two operations go alike when both succeed with related results or both fail for the same cause.
Composed operations go alike when their parts do: `Alike.bind` for one after another, `Alike.mapM`
for lists that are related item by item.
-/

namespace MappingMetadata

/-- Lists whose items are mapped to equal results have equal results. -/
theorem map_congr_of_forall₂ {α β γ : Type} {f : α → γ} {g : β → γ} {as : List α} {bs : List β}
    (h : List.Forall₂ (fun a b => f a = g b) as bs) : as.map f = bs.map g := by
  rwa [← List.forall₂_eq_eq_eq, List.forall₂_map_left_iff, List.forall₂_map_right_iff]

namespace Outcome

variable {α β γ δ : Type}

/-- Both succeed with related results, or both fail for the same cause. -/
inductive Alike (R : α → β → Prop) : Outcome α → Outcome β → Prop where
  | ok {a : α} {b : β} (h : R a b) : Alike R (.ok a) (.ok b)
  | error (e : Error) : Alike R (.error e) (.error e)

variable {R : α → β → Prop} {S : γ → δ → Prop}

theorem Alike.imp {R S : α → β → Prop} {x : Outcome α} {y : Outcome β} (h : Alike R x y)
    (hRS : ∀ a b, R a b → S a b) : Alike S x y := by
  cases h with
  | ok hab => exact .ok (hRS _ _ hab)
  | error e => exact .error e

theorem Alike.bind {x : Outcome α} {y : Outcome β} {f : α → Outcome γ} {g : β → Outcome δ}
    (h : Alike R x y) (hfg : ∀ a b, R a b → Alike S (f a) (g b)) : Alike S (x >>= f) (y >>= g) := by
  cases h with
  | ok hab => exact hfg _ _ hab
  | error e => exact .error e

theorem Alike.map {x : Outcome α} {y : Outcome β} {f : α → γ} {g : β → δ} (h : Alike R x y)
    (hfg : ∀ a b, R a b → S (f a) (g b)) : Alike S (x.map f) (y.map g) := by
  cases h with
  | ok hab => exact .ok (hfg _ _ hab)
  | error e => exact .error e

/-- Lists related item by item are mapped alike when related items are. -/
theorem Alike.mapM {f : α → Outcome γ} {g : β → Outcome δ} {as : List α} {bs : List β}
    (h : List.Forall₂ R as bs) (hfg : ∀ a b, R a b → Alike S (f a) (g b)) :
    Alike (List.Forall₂ S) (as.mapM f) (bs.mapM g) := by
  induction h with
  | nil => exact .ok .nil
  | cons hab _ ih =>
    rw [List.mapM_cons, List.mapM_cons]
    refine (hfg _ _ hab).bind fun c d hcd => ih.bind fun cs ds hcds => ?_
    exact .ok (.cons hcd hcds)

theorem alike_refl {R : α → α → Prop} (h : ∀ a, R a a) (x : Outcome α) : Alike R x x := by
  cases x with
  | ok a => exact .ok (h a)
  | error e => exact .error e

/-- Whatever is looked at in a result looks the same in itself. -/
theorem alike_same (f : α → β) (x : Outcome α) : Alike (fun a b => f a = f b) x x :=
  alike_refl (R := fun a b => f a = f b) (fun _ => rfl) x

/-- Operations with equal results go alike; where results are related by equality only, it is the
other way round too. -/
theorem alike_eq_iff {x y : Outcome α} : Alike Eq x y ↔ x = y := by
  constructor
  · rintro (⟨rfl⟩ | _) <;> rfl
  · rintro rfl
    exact alike_refl (fun _ => rfl) x

/-- Lists whose items are mapped to equal outcomes have equal outcomes. -/
theorem mapM_congr {f : α → Outcome γ} {g : β → Outcome γ} {as : List α} {bs : List β}
    (h : List.Forall₂ (fun a b => f a = g b) as bs) : as.mapM f = bs.mapM g := by
  have hitems : Alike (List.Forall₂ Eq) (as.mapM f) (bs.mapM g) :=
    Alike.mapM h fun _ _ hab => alike_eq_iff.2 hab
  rwa [List.forall₂_eq_eq_eq, alike_eq_iff] at hitems

end Outcome

end MappingMetadata
