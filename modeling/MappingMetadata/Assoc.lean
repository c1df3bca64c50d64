/-!
# Ordered finite maps

Maps kept in the order in which their keys were first put in. `Assoc` works on plain lists of
pairs, which may stand inside recursive types; `Dict` adds the proof that no key repeats.

The view of a map is `get?` together with the list of its keys: `get?_put` and `keys_put` say
all there is to know about `put`, and likewise for the other operations.
-/

namespace MappingMetadata

/-! ## Lists of pairs -/

namespace Assoc

variable {κ ν : Type} [DecidableEq κ]

/-- The value of the first pair with the key. -/
def get? : List (κ × ν) → κ → Option ν
  | [], _ => none
  | (k', v) :: m, k => if k' = k then some v else get? m k

/-- Replace the value of the key where it stands, or add the pair at the end. -/
def put : List (κ × ν) → κ → ν → List (κ × ν)
  | [], k, v => [(k, v)]
  | (k', v') :: m, k, v => if k' = k then (k', v) :: m else (k', v') :: put m k v

/-- Drop the key. -/
def erase (m : List (κ × ν)) (k : κ) : List (κ × ν) := m.filter fun p => p.1 ≠ k

/-- The keys in order. -/
def keys (m : List (κ × ν)) : List κ := m.map Prod.fst

/-- The map of a list of pairs: the first place of a repeated key, and its last value. -/
def ofList (ps : List (κ × ν)) : List (κ × ν) := ps.foldl (fun m p => put m p.1 p.2) []

theorem get?_put (m : List (κ × ν)) (k : κ) (v : ν) (k' : κ) :
    get? (put m k v) k' = if k = k' then some v else get? m k' := by
  induction m with
  | nil => simp [put, get?]
  | cons p m ih =>
    obtain ⟨k₀, v₀⟩ := p
    by_cases h : k₀ = k
    · subst h
      by_cases h' : k₀ = k' <;> simp [put, get?, h']
    · by_cases h' : k₀ = k'
      · subst h'
        have hk : ¬ k = k₀ := fun e => h e.symm
        simp [put, h, get?, hk]
      · simp only [put, h, if_false, get?, h', ih]

theorem keys_put (m : List (κ × ν)) (k : κ) (v : ν) :
    keys (put m k v) = if k ∈ keys m then keys m else keys m ++ [k] := by
  induction m with
  | nil => simp [put, keys]
  | cons p m ih =>
    obtain ⟨k₀, v₀⟩ := p
    by_cases h : k₀ = k
    · simp [put, keys, h]
    · have hk : ¬ k = k₀ := fun e => h e.symm
      have hput : keys (put ((k₀, v₀) :: m) k v) = k₀ :: keys (put m k v) := by
        simp [put, h, keys]
      have hcons : keys ((k₀, v₀) :: m) = k₀ :: keys m := rfl
      rw [hput, hcons, ih]
      by_cases hm : k ∈ keys m <;> simp [hm, hk]

theorem get?_isSome_iff (m : List (κ × ν)) (k : κ) : (get? m k).isSome ↔ k ∈ keys m := by
  induction m with
  | nil => simp [get?, keys]
  | cons p m ih =>
    obtain ⟨k₀, v₀⟩ := p
    by_cases h : k₀ = k
    · simp [get?, keys, h]
    · simp only [get?, h, if_false, ih, keys, List.map_cons, List.mem_cons]
      exact ⟨Or.inr, fun e => e.resolve_left fun e' => h e'.symm⟩

theorem get?_erase (m : List (κ × ν)) (k k' : κ) :
    get? (erase m k) k' = if k = k' then none else get? m k' := by
  induction m with
  | nil => simp [erase, get?]
  | cons p m ih =>
    obtain ⟨k₀, v₀⟩ := p
    by_cases h : k₀ = k
    · have hcons : erase ((k₀, v₀) :: m) k = erase m k := by simp [erase, h]
      rw [hcons, ih]
      by_cases h' : k = k' <;> simp [get?, h, h']
    · have hcons : erase ((k₀, v₀) :: m) k = (k₀, v₀) :: erase m k := by simp [erase, h]
      rw [hcons]
      by_cases h' : k₀ = k'
      · have hk : ¬ k = k' := fun e => h (h'.trans e.symm)
        simp [get?, h', hk]
      · simp [get?, h', ih]

theorem get?_map {μ : Type} (m : List (κ × ν)) (f : ν → μ) (k : κ) :
    get? (m.map fun p => (p.1, f p.2)) k = (get? m k).map f := by
  induction m with
  | nil => rfl
  | cons p m ih =>
    obtain ⟨k₀, v₀⟩ := p
    by_cases h : k₀ = k <;> simp [get?, h, ih]

theorem mem_of_get? {m : List (κ × ν)} {k : κ} {v : ν} (h : get? m k = some v) : (k, v) ∈ m := by
  induction m with
  | nil => simp [get?] at h
  | cons p m ih =>
    obtain ⟨k₀, v₀⟩ := p
    by_cases hk : k₀ = k
    · simp only [get?, hk, if_true, Option.some.injEq] at h
      simp [hk, h]
    · simp only [get?, hk, if_false] at h
      exact List.mem_cons_of_mem _ (ih h)

theorem get?_eq_some_of_mem {m : List (κ × ν)} (hm : (keys m).Nodup) {k : κ} {v : ν}
    (h : (k, v) ∈ m) : get? m k = some v := by
  induction m with
  | nil => simp at h
  | cons p m ih =>
    obtain ⟨k₀, v₀⟩ := p
    have hcons : keys ((k₀, v₀) :: m) = k₀ :: keys m := rfl
    rw [hcons, List.nodup_cons] at hm
    rcases List.mem_cons.1 h with he | h
    · cases he; simp [get?]
    · have hk : k₀ ≠ k := fun e => hm.1 (e ▸ List.mem_map.2 ⟨(k, v), h, rfl⟩)
      simp [get?, hk, ih hm.2 h]

/-- Reading the keys back gives the values in order. -/
theorem filterMap_get?_keys {m : List (κ × ν)} (hm : (keys m).Nodup) :
    (keys m).filterMap (get? m) = m.map Prod.snd := by
  have hall : ∀ ps : List (κ × ν), (∀ p ∈ ps, p ∈ m) →
      (keys ps).filterMap (get? m) = ps.map Prod.snd := by
    intro ps hps
    induction ps with
    | nil => rfl
    | cons p ps ih =>
      have hp : get? m p.1 = some p.2 := get?_eq_some_of_mem hm (hps p List.mem_cons_self)
      have hcons : keys (p :: ps) = p.1 :: keys ps := rfl
      rw [hcons, List.filterMap_cons_some hp, List.map_cons,
        ih fun q hq => hps q (List.mem_cons_of_mem _ hq)]
  exact hall m fun _ hp => hp

/-- A map is its keys in order and the value of each. -/
theorem ext_get? {m m' : List (κ × ν)} (hm : (keys m).Nodup) (hkeys : keys m = keys m')
    (hget : ∀ k, get? m k = get? m' k) : m = m' := by
  induction m generalizing m' with
  | nil => exact (List.map_eq_nil_iff.1 hkeys.symm).symm
  | cons p m ih =>
    cases m' with
    | nil => cases hkeys
    | cons p' m' =>
      obtain ⟨k, v⟩ := p
      obtain ⟨k', v'⟩ := p'
      have hcons : k = k' ∧ keys m = keys m' := List.cons.inj hkeys
      obtain ⟨rfl, htail⟩ := hcons
      have hnodup : k ∉ keys m ∧ (keys m).Nodup := List.nodup_cons.1 hm
      have hv : v = v' := by simpa [get?] using hget k
      subst hv
      rw [ih hnodup.2 htail fun k' => ?_]
      by_cases hk : k = k'
      · subst hk
        have hnone : ∀ l : List (κ × ν), keys l = keys m → get? l k = none := by
          intro l hl
          rw [← Option.not_isSome_iff_eq_none, get?_isSome_iff, hl]
          exact hnodup.1
        rw [hnone m rfl, hnone m' htail.symm]
      · simpa [get?, hk] using hget k'

theorem mem_put {m : List (κ × ν)} {k : κ} {v : ν} {p : κ × ν} (h : p ∈ put m k v) :
    p = (k, v) ∨ p ∈ m := by
  induction m with
  | nil => exact Or.inl (by simpa [put] using h)
  | cons q m ih =>
    obtain ⟨k₀, v₀⟩ := q
    by_cases hk : k₀ = k
    · rw [put, if_pos hk, List.mem_cons] at h
      rcases h with rfl | h
      · exact Or.inl (by rw [hk])
      · exact Or.inr (List.mem_cons_of_mem _ h)
    · rw [put, if_neg hk, List.mem_cons] at h
      rcases h with rfl | h
      · exact Or.inr List.mem_cons_self
      · exact (ih h).imp_right (List.mem_cons_of_mem _)

/-- Putting a value adds to the contents what it adds to the contents of the old value. -/
theorem flatMap_put_perm {β : Type} (f : ν → List β) (m : List (κ × ν)) (k : κ) (v : ν)
    (more : List β) (h : (f v).Perm (((get? m k).map f).getD [] ++ more)) :
    ((put m k v).flatMap fun p => f p.2).Perm ((m.flatMap fun p => f p.2) ++ more) := by
  induction m with
  | nil => simpa [put, get?] using h
  | cons p m ih =>
    obtain ⟨k₀, v₀⟩ := p
    by_cases hk : k₀ = k
    · simp only [get?, hk, if_true, Option.map_some, Option.getD_some] at h
      simp only [put, hk, if_true, List.flatMap_cons]
      refine (h.append_right _).trans ?_
      rw [List.append_assoc, List.append_assoc]
      exact (List.perm_append_comm).append_left _
    · simp only [get?, hk, if_false] at h
      simp only [put, hk, if_false, List.flatMap_cons, List.append_assoc]
      exact (ih h).append_left _

theorem flatMap_put_sublist {β : Type} (f : ν → List β) (m : List (κ × ν)) {k : κ} {v old : ν}
    (ho : get? m k = some old) (h : (f v).Sublist (f old)) :
    ((put m k v).flatMap fun p => f p.2).Sublist (m.flatMap fun p => f p.2) := by
  induction m with
  | nil => simp [get?] at ho
  | cons p m ih =>
    obtain ⟨k₀, v₀⟩ := p
    by_cases hk : k₀ = k
    · simp only [get?, hk, if_true, Option.some.injEq] at ho
      simp only [put, hk, if_true, List.flatMap_cons]
      exact List.Sublist.append (ho ▸ h) (List.Sublist.refl _)
    · simp only [get?, hk, if_false] at ho
      simp only [put, hk, if_false, List.flatMap_cons]
      exact List.Sublist.append (List.Sublist.refl _) (ih ho)

theorem put_ne_nil (m : List (κ × ν)) (k : κ) (v : ν) : put m k v ≠ [] := by
  cases m with
  | nil => simp [put]
  | cons p m =>
    rw [put]
    split <;> simp

theorem ofList_ne_nil {ps : List (κ × ν)} (h : ps ≠ []) : ofList ps ≠ [] := by
  suffices hfold : ∀ ps m : List (κ × ν), m ≠ [] →
      ps.foldl (fun m p => put m p.1 p.2) m ≠ [] by
    cases ps with
    | nil => exact absurd rfl h
    | cons p ps => exact hfold ps _ (put_ne_nil [] p.1 p.2)
  intro ps
  induction ps with
  | nil => exact fun m hm => hm
  | cons p ps ih => exact fun m _ => ih _ (put_ne_nil m p.1 p.2)

theorem mem_keys_ofList (ps : List (κ × ν)) (k : κ) : k ∈ keys (ofList ps) ↔ k ∈ keys ps := by
  suffices hfold : ∀ ps m : List (κ × ν),
      k ∈ keys (ps.foldl (fun m p => put m p.1 p.2) m) ↔ k ∈ keys m ∨ k ∈ keys ps from
    (hfold ps []).trans ⟨fun h => h.resolve_left (by simp [keys]), Or.inr⟩
  intro ps
  induction ps with
  | nil => simp [keys]
  | cons p ps ih =>
    intro m
    have hcons : keys (p :: ps) = p.1 :: keys ps := rfl
    rw [List.foldl_cons, ih, keys_put, hcons, List.mem_cons]
    split
    · rename_i hp
      exact ⟨fun h => h.imp_right Or.inr,
        fun h => h.elim Or.inl fun h => h.elim (fun e => Or.inl (e ▸ hp)) Or.inr⟩
    · rw [List.mem_append, List.mem_singleton, or_assoc]

theorem nodup_put {m : List (κ × ν)} (h : (keys m).Nodup) (k : κ) (v : ν) :
    (keys (put m k v)).Nodup := by
  rw [keys_put]
  split
  · exact h
  · next hk =>
    refine List.nodup_append.2 ⟨h, by simp, fun a ha b hb e => hk ?_⟩
    rw [← List.mem_singleton.1 hb, ← e]
    exact ha

theorem nodup_erase {m : List (κ × ν)} (h : (keys m).Nodup) (k : κ) :
    (keys (erase m k)).Nodup :=
  List.Pairwise.sublist (List.Sublist.map _ List.filter_sublist) h

theorem nodup_ofList (ps : List (κ × ν)) : (keys (ofList ps)).Nodup := by
  suffices h : ∀ m : List (κ × ν), (keys m).Nodup →
      (keys (ps.foldl (fun m p => put m p.1 p.2) m)).Nodup from h [] (by simp [keys])
  induction ps with
  | nil => exact fun m h => h
  | cons p ps ih => exact fun m h => ih _ (nodup_put h p.1 p.2)

end Assoc

/-! ## Maps without repeated keys -/

/-- A finite map in the order of first insertion. -/
structure Dict (κ ν : Type) where
  entries : List (κ × ν)
  nodup : (entries.map Prod.fst).Nodup

namespace Dict

variable {κ ν μ : Type}

/-- The map without entries. -/
def empty : Dict κ ν := ⟨[], List.nodup_nil⟩

instance : EmptyCollection (Dict κ ν) := ⟨empty⟩

instance : Inhabited (Dict κ ν) := ⟨empty⟩

/-- The keys in order. -/
def keys (d : Dict κ ν) : List κ := d.entries.map Prod.fst

/-- The values in the order of their keys. -/
def values (d : Dict κ ν) : List ν := d.entries.map Prod.snd

/-- Number of entries. -/
def size (d : Dict κ ν) : Nat := d.entries.length

/-- Apply a function to every value. -/
def mapValues (d : Dict κ ν) (f : ν → μ) : Dict κ μ :=
  ⟨d.entries.map fun p => (p.1, f p.2), by
    simpa [List.map_map, Function.comp_def] using d.nodup⟩

variable [DecidableEq κ]

/-- The value of a key. -/
def get? (d : Dict κ ν) (k : κ) : Option ν := Assoc.get? d.entries k

/-- Set the value of a key; a key that is there already keeps its place. -/
def put (d : Dict κ ν) (k : κ) (v : ν) : Dict κ ν :=
  ⟨Assoc.put d.entries k v, Assoc.nodup_put d.nodup k v⟩

/-- Drop a key; the others keep their order. -/
def erase (d : Dict κ ν) (k : κ) : Dict κ ν :=
  ⟨Assoc.erase d.entries k, Assoc.nodup_erase d.nodup k⟩

/-- Change the value of a key if it is there. -/
def modify (d : Dict κ ν) (k : κ) (f : ν → ν) : Dict κ ν :=
  match d.get? k with
  | some v => d.put k (f v)
  | none => d

/-- The map of a list of pairs: the first place of a repeated key, and its last value. -/
def ofList (ps : List (κ × ν)) : Dict κ ν := ⟨Assoc.ofList ps, Assoc.nodup_ofList ps⟩

@[simp] theorem get?_empty (k : κ) : (empty : Dict κ ν).get? k = none := rfl

@[simp] theorem get?_emptyCollection (k : κ) : (∅ : Dict κ ν).get? k = none := rfl

theorem get?_put (d : Dict κ ν) (k : κ) (v : ν) (k' : κ) :
    (d.put k v).get? k' = if k = k' then some v else d.get? k' :=
  Assoc.get?_put d.entries k v k'

theorem keys_put (d : Dict κ ν) (k : κ) (v : ν) :
    (d.put k v).keys = if k ∈ d.keys then d.keys else d.keys ++ [k] :=
  Assoc.keys_put d.entries k v

theorem get?_erase (d : Dict κ ν) (k k' : κ) :
    (d.erase k).get? k' = if k = k' then none else d.get? k' :=
  Assoc.get?_erase d.entries k k'

@[simp] theorem get?_mapValues (d : Dict κ ν) (f : ν → μ) (k : κ) :
    (d.mapValues f).get? k = (d.get? k).map f :=
  Assoc.get?_map d.entries f k

omit [DecidableEq κ] in
@[simp] theorem keys_mapValues (d : Dict κ ν) (f : ν → μ) : (d.mapValues f).keys = d.keys := by
  simp [keys, mapValues, Function.comp_def]

theorem get?_modify (d : Dict κ ν) (k : κ) (f : ν → ν) (k' : κ) :
    (d.modify k f).get? k' = if k = k' then (d.get? k').map f else d.get? k' := by
  by_cases hk : k = k'
  · subst hk
    cases h : d.get? k <;> simp [modify, h, get?_put]
  · cases h : d.get? k <;> simp [modify, h, get?_put, hk]

theorem mem_values_iff (d : Dict κ ν) (v : ν) : v ∈ d.values ↔ ∃ k, d.get? k = some v := by
  constructor
  · intro h
    obtain ⟨⟨k, w⟩, hp, rfl⟩ := List.mem_map.1 h
    exact ⟨k, Assoc.get?_eq_some_of_mem d.nodup hp⟩
  · rintro ⟨k, h⟩
    exact List.mem_map.2 ⟨(k, v), Assoc.mem_of_get? h, rfl⟩

theorem filterMap_get?_keys (d : Dict κ ν) : d.keys.filterMap d.get? = d.values :=
  Assoc.filterMap_get?_keys d.nodup

theorem ext_get? {d d' : Dict κ ν} (hkeys : d.keys = d'.keys)
    (hget : ∀ k, d.get? k = d'.get? k) : d = d' := by
  obtain ⟨entries, nodup⟩ := d
  obtain ⟨entries', nodup'⟩ := d'
  have hentries : entries = entries' := Assoc.ext_get? nodup hkeys hget
  subst hentries
  rfl

theorem mem_keys_iff (d : Dict κ ν) (k : κ) : k ∈ d.keys ↔ (d.get? k).isSome :=
  (Assoc.get?_isSome_iff d.entries k).symm

@[simp] theorem keys_modify (d : Dict κ ν) (k : κ) (f : ν → ν) : (d.modify k f).keys = d.keys := by
  cases h : d.get? k with
  | none => simp [modify, h]
  | some v =>
    have hk : k ∈ d.keys := (mem_keys_iff d k).2 (by simp [h])
    simp [modify, h, keys_put, hk]

end Dict

end MappingMetadata
