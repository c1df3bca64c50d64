import Mathlib.Data.List.Forall2
import MappingMetadata.Change

/-!
# Outcomes of composed operations

What must have succeeded for a composed operation to succeed, and with which error it fails
otherwise.
-/

namespace MappingMetadata

/-- In related lists every item on the right has one on the left. -/
theorem exists_of_mem_forall₂ {α β : Type} {R : α → β → Prop} {as : List α} {bs : List β}
    (h : List.Forall₂ R as bs) {b : β} (hb : b ∈ bs) : ∃ a ∈ as, R a b := by
  induction h with
  | nil => cases hb
  | cons hr _ ih =>
    rcases List.mem_cons.1 hb with rfl | hb
    · exact ⟨_, List.mem_cons_self, hr⟩
    · obtain ⟨a, ha, hab⟩ := ih hb
      exact ⟨a, List.mem_cons_of_mem _ ha, hab⟩

namespace Outcome

variable {α β : Type}

theorem bind_eq_ok_iff {x : Outcome α} {f : α → Outcome β} {b : β} :
    x >>= f = .ok b ↔ ∃ a, x = .ok a ∧ f a = .ok b := by
  cases x with
  | ok a =>
    refine ⟨fun h => ⟨a, rfl, h⟩, ?_⟩
    rintro ⟨a', h, hf⟩
    cases h
    exact hf
  | error e =>
    refine ⟨nofun, ?_⟩
    rintro ⟨a', h, -⟩
    cases h

/-- What two actions list one after the other. -/
theorem bind_append_eq_ok_iff {x : Outcome (List α)} {f : List α → Outcome (List α)}
    {cs : List α} :
    (do let as ← x; let bs ← f as; return as ++ bs) = .ok cs ↔
      ∃ as bs, x = .ok as ∧ f as = .ok bs ∧ cs = as ++ bs := by
  rw [bind_eq_ok_iff]
  constructor
  · rintro ⟨as, has, h⟩
    obtain ⟨bs, hbs, h⟩ := bind_eq_ok_iff.1 h
    cases h
    exact ⟨as, bs, has, hbs, rfl⟩
  · rintro ⟨as, bs, has, hbs, rfl⟩
    exact ⟨as, has, bind_eq_ok_iff.2 ⟨bs, hbs, rfl⟩⟩

theorem isOk_iff {x : Outcome α} : x.isOk ↔ ∃ a, x = .ok a := by
  cases x <;> simp [Except.isOk, Except.toBool]

theorem toOption_eq_some_iff {x : Outcome α} {a : α} : x.toOption = some a ↔ x = .ok a := by
  cases x <;> simp [Except.toOption]

theorem map_eq_ok_iff {x : Outcome α} {f : α → β} {b : β} :
    x.map f = .ok b ↔ ∃ a, x = .ok a ∧ f a = b := by
  cases x <;> simp [Except.map]

/-- A list is mapped successfully when each of its items is. -/
theorem mapM_eq_ok_iff {f : α → Outcome β} {as : List α} {bs : List β} :
    as.mapM f = .ok bs ↔ List.Forall₂ (fun a b => f a = .ok b) as bs := by
  induction as generalizing bs with
  | nil =>
    rw [List.mapM_nil, List.forall₂_nil_left_iff]
    constructor
    · intro h
      cases h
      rfl
    · rintro rfl
      rfl
  | cons a as ih =>
    rw [List.mapM_cons, bind_eq_ok_iff]
    constructor
    · rintro ⟨b, hb, h⟩
      obtain ⟨bs', hbs, h⟩ := bind_eq_ok_iff.1 h
      cases h
      exact .cons hb (ih.1 hbs)
    · intro h
      cases h with
      | cons hb hbs => exact ⟨_, hb, bind_eq_ok_iff.2 ⟨_, ih.2 hbs, rfl⟩⟩

/-- A list can be mapped when each of its items can. -/
theorem exists_mapM_iff {f : α → Outcome β} {as : List α} :
    (∃ bs, as.mapM f = .ok bs) ↔ ∀ a ∈ as, ∃ b, f a = .ok b := by
  induction as with
  | nil => exact ⟨fun _ a ha => (List.not_mem_nil ha).elim, fun _ => ⟨[], rfl⟩⟩
  | cons a as ih =>
    simp only [mapM_eq_ok_iff, List.forall₂_cons_left_iff] at ih ⊢
    rw [List.forall_mem_cons, ← ih]
    constructor
    · rintro ⟨_, b, bs, hb, hbs, rfl⟩
      exact ⟨⟨b, hb⟩, bs, hbs⟩
    · rintro ⟨⟨b, hb⟩, bs, hbs⟩
      exact ⟨b :: bs, b, bs, hb, hbs, rfl⟩

theorem mapM_map_eq_ok {f : α → Outcome β} {γ : Type} {items : List γ} {g : γ → α} {h : γ → β}
    (hf : ∀ i ∈ items, f (g i) = .ok (h i)) : (items.map g).mapM f = .ok (items.map h) := by
  rw [mapM_eq_ok_iff, List.forall₂_map_left_iff, List.forall₂_map_right_iff, List.forall₂_same]
  exact hf

theorem exists_of_mem_mapM {f : α → Outcome β} {as : List α} {bs : List β}
    (h : as.mapM f = .ok bs) {b : β} (hb : b ∈ bs) : ∃ a ∈ as, f a = .ok b :=
  exists_of_mem_forall₂ (mapM_eq_ok_iff.1 h) hb

/-! ## Errors -/

/-- The error of a failure. -/
def error? : Outcome α → Option Error
  | .ok _ => none
  | .error e => some e

theorem error?_map (x : Outcome α) (f : α → β) : error? (x.map f) = error? x := by
  cases x <;> rfl

/-- Of two operations the second can fail only if the first does not. -/
theorem error?_bind (x : Outcome α) {f : α → Outcome β} {e : Option Error}
    (h : ∀ a, error? (f a) = e) : error? (x >>= f) = (error? x).or e := by
  cases x with
  | ok a => exact h a
  | error err => rfl

theorem error?_eq_some_iff {x : Outcome α} {e : Error} : error? x = some e ↔ x = .error e := by
  cases x <;> simp [error?]

theorem error?_eq_none_iff {x : Outcome α} : error? x = none ↔ ∃ a, x = .ok a := by
  cases x <;> simp [error?]

/-- A list fails with the error of its first item that fails. -/
theorem error?_mapM (f : α → Outcome β) (as : List α) :
    error? (as.mapM f) = as.findSome? fun a => error? (f a) := by
  induction as with
  | nil => rfl
  | cons a as ih =>
    have hrest : ∀ b, error? (as.mapM f >>= fun bs => pure (b :: bs)) = error? (as.mapM f) :=
      fun b => (error?_bind (e := none) _ fun _ => rfl).trans Option.or_none
    rw [List.mapM_cons, error?_bind _ hrest, ih, List.findSome?_cons]
    cases error? (f a) <;> rfl

theorem mapM_eq_error_iff {f : α → Outcome β} {as : List α} {e : Error} :
    as.mapM f = .error e ↔ ∃ before a after,
      as = before ++ a :: after ∧ (∀ b ∈ before, ∃ c, f b = .ok c) ∧ f a = .error e := by
  rw [← error?_eq_some_iff, error?_mapM, List.findSome?_eq_some_iff]
  simp only [error?_eq_some_iff, error?_eq_none_iff]
  exact exists_congr fun _ => exists_congr fun _ => exists_congr fun _ => and_congr_right fun _ =>
    and_comm

end Outcome

end MappingMetadata
