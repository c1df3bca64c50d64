import MappingMetadata.Codec.Record

/-!
# Readings that yield

A reading *yields* a value when it ends with this value whatever surrounds it, and leaves the
surroundings as it found them: it follows no alias, and it does not matter to it whether the tree
was settled before.

All reading of written data is of this kind, as nothing in it is open or stands elsewhere
(`yields_node`). Settling written data changes nothing (`yields_settle`), given a budget for its
depth, which is how many lists and records stand inside one another (`Data.depth`).
-/

namespace MappingMetadata

/-! ## Depth -/

mutual

/-- How many lists and records stand inside one another. -/
def Data.depth : Data → Nat
  | .list items => Data.itemsDepth items + 1
  | .record members => Data.membersDepth members + 1
  | _ => 0

/-- The depth of the deepest item. -/
def Data.itemsDepth : List Data → Nat
  | [] => 0
  | d :: ds => max d.depth (Data.itemsDepth ds)

/-- The depth of the deepest member. -/
def Data.membersDepth : List (String × Data) → Nat
  | [] => 0
  | (_, d) :: ms => max d.depth (Data.membersDepth ms)

end

namespace Data

theorem itemsDepth_le_iff {ds : List Data} {n : Nat} :
    itemsDepth ds ≤ n ↔ ∀ d ∈ ds, d.depth ≤ n := by
  induction ds with
  | nil => simp [itemsDepth]
  | cons d ds ih => rw [itemsDepth, Nat.max_le, ih, List.forall_mem_cons]

theorem membersDepth_le_iff {ms : List (String × Data)} {n : Nat} :
    membersDepth ms ≤ n ↔ ∀ m ∈ ms, m.2.depth ≤ n := by
  induction ms with
  | nil => simp [membersDepth]
  | cons m ms ih => rw [membersDepth, Nat.max_le, ih, List.forall_mem_cons]

theorem depth_list_le_iff {ds : List Data} {n : Nat} :
    (list ds).depth ≤ n + 1 ↔ ∀ d ∈ ds, d.depth ≤ n := by
  rw [depth, Nat.add_le_add_iff_right, itemsDepth_le_iff]

theorem depth_record_le_iff {ms : List (String × Data)} {n : Nat} :
    (record ms).depth ≤ n + 1 ↔ ∀ m ∈ ms, m.2.depth ≤ n := by
  rw [depth, Nat.add_le_add_iff_right, membersDepth_le_iff]

theorem depth_lt_of_mem_list {ds : List Data} {d : Data} (h : d ∈ ds) :
    d.depth < (list ds).depth :=
  Nat.lt_succ_of_le (itemsDepth_le_iff.1 (Nat.le_refl _) d h)

theorem depth_lt_of_mem_record {ms : List (String × Data)} {m : String × Data} (h : m ∈ ms) :
    m.2.depth < (record ms).depth :=
  Nat.lt_succ_of_le (membersDepth_le_iff.1 (Nat.le_refl _) m h)

/-- A budget for a list leaves one for each of its items. -/
theorem exists_of_depth_list_le {ds : List Data} {n : Nat} (h : (list ds).depth ≤ n) :
    ∃ k, n = k + 1 ∧ ∀ d ∈ ds, d.depth ≤ k := by
  have hpositive : 0 < n := Nat.lt_of_lt_of_le (Nat.succ_pos _) h
  obtain ⟨k, rfl⟩ := Nat.exists_eq_succ_of_ne_zero (Nat.ne_of_gt hpositive)
  exact ⟨k, rfl, depth_list_le_iff.1 h⟩

/-- A budget for a record leaves one for each of its members. -/
theorem exists_of_depth_record_le {ms : List (String × Data)} {n : Nat}
    (h : (record ms).depth ≤ n) : ∃ k, n = k + 1 ∧ ∀ m ∈ ms, m.2.depth ≤ k := by
  have hpositive : 0 < n := Nat.lt_of_lt_of_le (Nat.succ_pos _) h
  obtain ⟨k, rfl⟩ := Nat.exists_eq_succ_of_ne_zero (Nat.ne_of_gt hpositive)
  exact ⟨k, rfl, depth_record_le_iff.1 h⟩

end Data

/-! ## Trees of written data -/

namespace Tree

theorem ofItems_eq (ds : List Data) : ofItems ds = ds.map ofData := by
  induction ds with
  | nil => rfl
  | cons d ds ih => rw [ofItems, ih, List.map_cons]

theorem ofMembers_eq (ms : List (String × Data)) :
    ofMembers ms = ms.map fun m => (.text m.1, ofData m.2) := by
  induction ms with
  | nil => rfl
  | cons m ms ih => rw [ofMembers, ih, List.map_cons]

end Tree

namespace Reading

variable {α β γ : Type}

/-- Whatever surrounds it, the reading ends with this value and leaves the surroundings alone. -/
def Yields (r : Reading α) (a : α) : Prop := ∀ s, r.run s = some (a, s)

/-- Whatever surrounds it, the reading does not succeed. -/
def Fails (r : Reading α) : Prop := ∀ s, r.run s = none

/-! ## Putting readings together -/

theorem yields_pure (a : α) : Yields (pure a) a := fun _ => rfl

theorem yields_ofOption (a : α) : (ofOption (some a)).Yields a := fun _ => rfl

theorem Yields.bind {r : Reading α} {f : α → Reading β} {a : α} {b : β} (h : r.Yields a)
    (h' : (f a).Yields b) : (r >>= f).Yields b := by
  intro s
  rw [StateT.run_bind, h s]
  exact h' s

theorem fails_failure : Fails (failure : Reading α) := fun _ => rfl

theorem Fails.of_bind {r : Reading α} {f : α → Reading β} {a : α} (h : r.Yields a)
    (h' : (f a).Fails) : (r >>= f).Fails := by
  intro s
  rw [StateT.run_bind, h s]
  exact h' s

theorem Fails.bind {r : Reading α} (h : r.Fails) (f : α → Reading β) : (r >>= f).Fails := by
  intro s
  rw [StateT.run_bind, h s]
  rfl

/-- The second attempt is made when the first fails. -/
theorem Yields.orElse {r r' : Reading α} {a : α} (h : r.Fails) (h' : r'.Yields a) :
    (r <|> r').Yields a := by
  intro s
  have hfirst : r s = none := h s
  have hsecond : r' s = some (a, s) := h' s
  change (r s <|> r' s) = some (a, s)
  rw [hfirst, hsecond]
  rfl

/-- Items are read back one by one from what they have been turned into. -/
theorem Yields.mapM_map {δ : Type} {f : β → Reading γ} {p : δ → β} {g : δ → γ} {xs : List δ}
    (h : ∀ x ∈ xs, (f (p x)).Yields (g x)) : ((xs.map p).mapM f).Yields (xs.map g) := by
  induction xs with
  | nil => exact yields_pure []
  | cons x xs ih =>
    rw [List.forall_mem_cons] at h
    rw [List.map_cons, List.mapM_cons]
    exact h.1.bind ((ih h.2).bind (yields_pure _))

theorem Yields.enter {body : Nat → Reading α} {d : Nat} {a : α} (h : (body d).Yields a) :
    (enter (d + 1) body).Yields a := h

/-- Reading under another origin, which is put back afterwards. -/
theorem run_withOrigin (r : Reading α) (origin : Origin) (s : Surroundings) :
    (do
      let o := (← get).origin
      modify fun s => { s with origin := origin }
      let a ← r
      modify fun s => { s with origin := o }
      return a : Reading α).run s =
      (r.run { s with origin := origin }).map fun p => (p.1, { p.2 with origin := s.origin }) := by
  change (r { s with origin := origin }).bind _ = (r { s with origin := origin }).map _
  cases r { s with origin := origin } <;> rfl

theorem Yields.fromSettled {r : Reading α} {a : α} (h : r.Yields a) : (fromSettled r).Yields a := by
  intro s
  refine (run_withOrigin r .settled s).trans ?_
  rw [h]
  rfl

theorem Yields.fromKept {r : Reading α} {a : α} (h : r.Yields a) : (fromKept r).Yields a := by
  intro s
  refine (run_withOrigin r .kept s).trans ?_
  rw [h]
  rfl

/-! ## Reading written data -/

theorem yields_follow (d : Data) : (follow (Tree.ofData d)).Yields (Tree.ofData d) := by
  cases d <;> exact yields_pure _

theorem yields_node (d : Data) : (node (Tree.ofData d)).Yields (Tree.ofData d) := by
  refine (yields_follow d).bind ?_
  cases d <;> exact yields_pure _

/-- Written data is settled already. -/
theorem yields_settle {d : Nat} {x : Data} (h : x.depth ≤ d) :
    (settle d (Tree.ofData x)).Yields (Tree.ofData x) := by
  induction d generalizing x with
  | zero =>
    cases x with
    | null | bool b | int n | text s => exact (yields_follow _).bind (yields_ofOption _)
    | list ds => exact absurd h (by simp [Data.depth])
    | record ms => exact absurd h (by simp [Data.depth])
  | succ d ih =>
    cases x with
    | null | bool b | int n | text s => exact (yields_follow _).bind (yields_ofOption _)
    | list ds =>
      rw [Data.depth_list_le_iff] at h
      have hitems : ((Tree.ofItems ds).mapM (settle d)).Yields (Tree.ofItems ds) := by
        rw [Tree.ofItems_eq]
        exact Yields.mapM_map fun y hy => ih (h y hy)
      exact (yields_follow _).bind (hitems.bind (yields_pure _))
    | record ms =>
      rw [Data.depth_record_le_iff] at h
      have hentries : ((Tree.ofMembers ms).mapM fun p : Tree × Tree => do
          return (← settle d p.1, ← settle d p.2)).Yields (Tree.ofMembers ms) := by
        rw [Tree.ofMembers_eq]
        refine Yields.mapM_map fun m hm => ?_
        have hkey : (settle d (Tree.ofData (.text m.1))).Yields (.text m.1) := ih (Nat.zero_le d)
        exact hkey.bind ((ih (h m hm)).bind (yields_pure _))
      exact (yields_follow _).bind (hentries.bind (yields_pure _))

end Reading

end MappingMetadata
