import MappingMetadata.Override.Merge
import MappingMetadata.Proofs.Outcome

/-!
# What merging yields

A merged list is the declared overrides followed by the *fresh* part of the indexed ones: those
whose names are neither declared nor have come before (`appendNew_eq`). `merge_eq_ok_iff` says
when merging succeeds and what it then returns, so that later proofs need not look into `merge`.

The fresh part depends on the taken names only as a set, and taking fresh parts composes:
`fresh_append` for lists one after another, `fresh_fresh` for one fresh part of another.
-/

namespace MappingMetadata.Override

variable {f : Family}

/-! ## Fresh items -/

/-- The items whose names are not taken, each name at its first place only. -/
def fresh (taken : List String) : List (Item f) → List (Item f)
  | [] => []
  | i :: rest => if i.name ∈ taken then fresh taken rest else i :: fresh (i.name :: taken) rest

/-- Which items are fresh depends on the set of taken names. -/
theorem fresh_congr {taken taken' : List String} (h : ∀ n, n ∈ taken ↔ n ∈ taken')
    (is : List (Item f)) : fresh taken is = fresh taken' is := by
  induction is generalizing taken taken' with
  | nil => rfl
  | cons i rest ih =>
    have hcons : ∀ n, n ∈ i.name :: taken ↔ n ∈ i.name :: taken' := fun n => by
      rw [List.mem_cons, List.mem_cons, h]
    rw [fresh, fresh, ih h, ih hcons]
    simp only [h]

theorem appendNew_eq (own is : List (Item f)) :
    appendNew own is = own ++ fresh (own.map Item.name) is := by
  induction is generalizing own with
  | nil => simp [appendNew, fresh]
  | cons i rest ih =>
    rw [appendNew, fresh]
    split
    · exact ih own
    · rw [ih, List.append_assoc, List.singleton_append, List.map_append]
      congr 2
      exact fresh_congr (fun n => by simp [or_comm]) rest

theorem mem_of_mem_fresh {taken : List String} {is : List (Item f)} {i : Item f}
    (h : i ∈ fresh taken is) : i ∈ is ∧ i.name ∉ taken := by
  induction is generalizing taken with
  | nil => cases h
  | cons j rest ih =>
    rw [fresh] at h
    split at h
    · exact (ih h).imp_left (List.mem_cons_of_mem _)
    · rename_i hj
      rcases List.mem_cons.1 h with rfl | h
      · exact ⟨List.mem_cons_self, hj⟩
      · obtain ⟨hi, hn⟩ := ih h
        exact ⟨List.mem_cons_of_mem _ hi, fun ht => hn (List.mem_cons_of_mem _ ht)⟩

theorem nodup_fresh (taken : List String) (is : List (Item f)) :
    ((fresh taken is).map Item.name).Nodup := by
  induction is generalizing taken with
  | nil => exact List.nodup_nil
  | cons i rest ih =>
    rw [fresh]
    split
    · exact ih taken
    · rw [List.map_cons, List.nodup_cons]
      refine ⟨fun hi => ?_, ih _⟩
      obtain ⟨j, hj, hn⟩ := List.mem_map.1 hi
      exact (mem_of_mem_fresh hj).2 (hn ▸ List.mem_cons_self)

theorem fresh_append (taken : List String) (is js : List (Item f)) :
    fresh taken (is ++ js) = fresh taken is ++ fresh (is.map Item.name ++ taken) js := by
  induction is generalizing taken with
  | nil => rfl
  | cons i rest ih =>
    rw [List.cons_append, fresh, fresh]
    split
    · rename_i hi
      rw [ih]
      congr 1
      refine fresh_congr (fun n => ?_) js
      simp only [List.map_cons, List.cons_append, List.mem_cons, List.mem_append]
      exact ⟨Or.inr, fun h => h.elim (fun e => Or.inr (e ▸ hi)) id⟩
    · rw [ih, List.cons_append]
      congr 2
      refine fresh_congr (fun n => ?_) js
      simp only [List.map_cons, List.cons_append, List.mem_cons, List.mem_append]
      tauto

theorem fresh_fresh (taken taken' : List String) (is : List (Item f)) :
    fresh taken (fresh taken' is) = fresh (taken ++ taken') is := by
  induction is generalizing taken taken' with
  | nil => rfl
  | cons i rest ih =>
    by_cases hi' : i.name ∈ taken'
    · rw [fresh, if_pos hi', ih, fresh, if_pos (List.mem_append_right _ hi')]
    · rw [fresh, if_neg hi', fresh]
      by_cases hi : i.name ∈ taken
      · rw [if_pos hi, ih, fresh, if_pos (List.mem_append_left _ hi)]
        refine fresh_congr (fun n => ?_) rest
        simp only [List.mem_append, List.mem_cons]
        exact ⟨fun h => h.elim Or.inl fun h => h.elim (fun e => Or.inl (e ▸ hi)) Or.inr,
          fun h => h.imp_right Or.inr⟩
      · have hn : i.name ∉ taken ++ taken' := fun h => (List.mem_append.1 h).elim hi hi'
        rw [if_neg hi, ih, fresh, if_neg hn]
        congr 1
        refine fresh_congr (fun n => ?_) rest
        simp only [List.mem_append, List.mem_cons]
        tauto

theorem fresh_eq_nil {taken : List String} {is : List (Item f)} (h : ∀ i ∈ is, i.name ∈ taken) :
    fresh taken is = [] := by
  induction is with
  | nil => rfl
  | cons i rest ih =>
    rw [fresh, if_pos (h i List.mem_cons_self)]
    exact ih fun j hj => h j (List.mem_cons_of_mem _ hj)

/-! ## Declared lists -/

/-- The declared overrides that take part in merging. -/
def taking (f : Family) (dedupe : Bool) (declared : List f.Declared) : List f.Declared :=
  if dedupe then collapse f declared else declared

theorem keys_collapse (os : List f.Declared) :
    (collapse f os).map f.name = Assoc.keys (Assoc.ofList (os.map fun o => (f.name o, o))) := by
  -- Every pair holds its override under the name of the override.
  suffices h : ∀ ps m : List (String × f.Declared), (∀ p ∈ ps, p.1 = f.name p.2) →
      (∀ p ∈ m, p.1 = f.name p.2) →
      ∀ p ∈ ps.foldl (fun m p => Assoc.put m p.1 p.2) m, p.1 = f.name p.2 by
    unfold collapse Assoc.keys Assoc.ofList
    rw [List.map_map]
    refine List.map_congr_left fun p hp => (h _ [] (fun q hq => ?_) (by simp) p hp).symm
    obtain ⟨o, -, rfl⟩ := List.mem_map.1 hq
    rfl
  intro ps
  induction ps with
  | nil => exact fun m _ hm => hm
  | cons q ps ih =>
    intro m hps hm
    refine ih _ (fun p hp => hps p (List.mem_cons_of_mem _ hp)) fun p hp => ?_
    rcases Assoc.mem_put hp with rfl | hp
    · exact hps q List.mem_cons_self
    · exact hm p hp

theorem nodup_collapse (os : List f.Declared) : ((collapse f os).map f.name).Nodup := by
  rw [keys_collapse]
  exact Assoc.nodup_ofList _

theorem mem_of_mem_collapse {os : List f.Declared} {o : f.Declared} (h : o ∈ collapse f os) :
    o ∈ os := by
  suffices hsub : ∀ ps m : List (String × f.Declared),
      ∀ p ∈ ps.foldl (fun m p => Assoc.put m p.1 p.2) m, p ∈ ps ∨ p ∈ m by
    obtain ⟨p, hp, rfl⟩ := List.mem_map.1 h
    obtain ⟨o, ho, rfl⟩ := List.mem_map.1 ((hsub _ [] p hp).resolve_right (by simp))
    exact ho
  intro ps
  induction ps with
  | nil => exact fun m p hp => Or.inr hp
  | cons q ps ih =>
    intro m p hp
    rcases ih _ p hp with hp | hp
    · exact Or.inl (List.mem_cons_of_mem _ hp)
    · rcases Assoc.mem_put hp with rfl | hp
      · exact Or.inl List.mem_cons_self
      · exact Or.inr hp

theorem mem_of_mem_taking {dedupe : Bool} {os : List f.Declared} {o : f.Declared}
    (h : o ∈ taking f dedupe os) : o ∈ os := by
  cases dedupe with
  | true => exact mem_of_mem_collapse h
  | false => exact h

theorem taking_ne_nil {dedupe : Bool} {os : List f.Declared} (h : os ≠ []) :
    taking f dedupe os ≠ [] := by
  cases dedupe with
  | false => exact h
  | true =>
    intro hnil
    refine Assoc.ofList_ne_nil ?_ (List.map_eq_nil_iff.1 hnil)
    simpa using h

/-! ## Merging -/

theorem mergeFrom_some (source : Source) (dedupe : Bool) (declared : List f.Declared)
    (site : Site) :
    mergeFrom f source dedupe declared (some site) =
      if declared.isEmpty then .ok none
      else if declared.any fun o => Text.isBlank (f.name o) then .error (.missingName f.scalar)
      else (source.overrides f site).mapM Item.carry >>= fun carried =>
        .ok (some ⟨site, (taking f dedupe declared).map .declared ++
          fresh ((taking f dedupe declared).map f.name) carried⟩) := by
  have hnames : ((taking f dedupe declared).map Item.declared).map Item.name =
      (taking f dedupe declared).map f.name := by
    rw [List.map_map]
    rfl
  simp only [← hnames, ← appendNew_eq]
  rfl

theorem merge_some (ix : Index) (dedupe : Bool) (declared : List f.Declared) (site : Site) :
    merge f ix dedupe declared (some site) =
      if declared.isEmpty then .ok none
      else if declared.any fun o => Text.isBlank (f.name o) then .error (.missingName f.scalar)
      else (indexed ix f site).mapM Item.carry >>= fun carried =>
        .ok (some ⟨site, (taking f dedupe declared).map .declared ++
          fresh ((taking f dedupe declared).map f.name) carried⟩) :=
  mergeFrom_some ix.ofKind dedupe declared site

/-- When merging succeeds, and what it yields. -/
theorem merge_eq_ok_iff {ix : Index} {dedupe : Bool} {declared : List f.Declared} {site : Site}
    {m : Option (Merged f)} :
    merge f ix dedupe declared (some site) = .ok m ↔
      (declared = [] ∧ m = none) ∨
      (declared ≠ [] ∧ (∀ o ∈ declared, ¬ Text.isBlank (f.name o)) ∧
        ∃ carried, (indexed ix f site).mapM Item.carry = .ok carried ∧
          m = some ⟨site, (taking f dedupe declared).map .declared ++
            fresh ((taking f dedupe declared).map f.name) carried⟩) := by
  rw [merge_some]
  by_cases hd : declared = []
  · rw [if_pos (by rw [hd]; rfl)]
    constructor
    · intro h
      cases h
      exact Or.inl ⟨hd, rfl⟩
    · rintro (⟨-, rfl⟩ | ⟨hne, -⟩)
      · rfl
      · exact absurd hd hne
  · rw [if_neg (by simpa using hd)]
    split
    · rename_i hb
      obtain ⟨o, ho, hob⟩ := List.any_eq_true.1 hb
      refine ⟨nofun, ?_⟩
      rintro (⟨h, -⟩ | ⟨-, hall, -⟩)
      · exact absurd h hd
      · exact absurd hob (hall o ho)
    · rename_i hb
      have hall : ∀ o ∈ declared, ¬ Text.isBlank (f.name o) := fun o ho hob =>
        hb (List.any_eq_true.2 ⟨o, ho, hob⟩)
      rw [Outcome.bind_eq_ok_iff]
      constructor
      · rintro ⟨carried, hc, h⟩
        cases h
        exact Or.inr ⟨hd, hall, carried, hc, rfl⟩
      · rintro (⟨h, -⟩ | ⟨-, -, carried, hc, rfl⟩)
        · exact absurd h hd
        · exact ⟨carried, hc, rfl⟩

end MappingMetadata.Override
