import MappingMetadata.Proofs.Override.Items

/-!
# Merging the same overrides again

Seen from one site, a document is a list of merges, each of which moves what it declares to the
front of what is held. When the document is applied again, the merges meet what they have left
themselves, so the lists in between differ from those of the first time: other overrides stand in
front.

They differ only in the place of names that are still to be merged, and `fresh names` forgets just
these. What is fresh for all the names to come is the same in both runs: at the start of the second
run, because the first has moved nothing else (`fresh_mergeAll`), and from one merge to the next
(`fresh_mergeInto_congr`). After the last merge no name is to come, so nothing differs any more.
-/

namespace MappingMetadata.Override

variable {f : Family} (d : Defaults) (dedupe : Bool)

/-- The names that declared overrides take. -/
def taken (f : Family) (dedupe : Bool) (declared : List f.Declared) : List String :=
  (taking f dedupe declared).map f.name

/-- What is held for a site after declared overrides are merged into it. -/
def mergeInto (declared : List f.Declared) (held : List (Item f)) : List (Item f) :=
  if declared.isEmpty then held
  else (taking f dedupe declared).map (fun o => (Item.declared o).settled d) ++
    fresh (taken f dedupe declared) held

theorem names_settled (os : List f.Declared) :
    (os.map fun o => (Item.declared o).settled d).map Item.name = os.map f.name := by
  rw [List.map_map]
  rfl

theorem taken_nil : taken f dedupe [] = [] := by
  cases dedupe <;> rfl

theorem fresh_mergeInto (declared : List f.Declared) (held : List (Item f)) (names : List String) :
    fresh names (mergeInto d dedupe declared held) =
      if declared.isEmpty then fresh names held
      else fresh names ((taking f dedupe declared).map fun o => (Item.declared o).settled d) ++
        fresh (taken f dedupe declared ++ names) held := by
  unfold mergeInto
  split
  · rfl
  · rw [fresh_append, names_settled, fresh_fresh]
    congr 1
    refine fresh_congr (fun n => ?_) held
    simp only [taken, List.mem_append]
    tauto

/-- A merge changes nothing in what is fresh for the names it takes. -/
theorem fresh_mergeInto_of_subset {declared : List f.Declared} {names : List String}
    (h : ∀ n ∈ taken f dedupe declared, n ∈ names) (held : List (Item f)) :
    fresh names (mergeInto d dedupe declared held) = fresh names held := by
  rw [fresh_mergeInto]
  split
  · rfl
  · have hown : fresh names ((taking f dedupe declared).map fun o =>
        (Item.declared o).settled d) = [] := by
      refine fresh_eq_nil fun i hi => h i.name ?_
      rw [taken, ← names_settled d]
      exact List.mem_map_of_mem hi
    rw [hown, List.nil_append]
    refine fresh_congr (fun n => ?_) held
    rw [List.mem_append]
    exact ⟨fun hn => hn.elim (h n) id, Or.inr⟩

/-- A merge brings two lists closer: they may differ in the names that it takes. -/
theorem fresh_mergeInto_congr {declared : List f.Declared} {names : List String}
    {held held' : List (Item f)}
    (h : fresh (taken f dedupe declared ++ names) held =
      fresh (taken f dedupe declared ++ names) held') :
    fresh names (mergeInto d dedupe declared held) =
      fresh names (mergeInto d dedupe declared held') := by
  rw [fresh_mergeInto, fresh_mergeInto]
  split
  · rename_i hd
    rw [List.isEmpty_iff.1 hd, taken_nil] at h
    exact h
  · rw [h]

/-! ## Many merges -/

/-- What is held for a site after several lists are merged into it. -/
def mergeAll (lists : List (List f.Declared)) (held : List (Item f)) : List (Item f) :=
  lists.foldl (fun held declared => mergeInto d dedupe declared held) held

/-- The names that several lists take. -/
def takenAll (lists : List (List f.Declared)) : List String := lists.flatMap (taken f dedupe)

theorem fresh_mergeAll {lists : List (List f.Declared)} {names : List String}
    (h : ∀ n ∈ takenAll dedupe lists, n ∈ names) (held : List (Item f)) :
    fresh names (mergeAll d dedupe lists held) = fresh names held := by
  induction lists generalizing held with
  | nil => rfl
  | cons declared lists ih =>
    rw [takenAll, List.flatMap_cons] at h
    refine (ih (fun n hn => h n (List.mem_append_right _ hn)) _).trans ?_
    exact fresh_mergeInto_of_subset d dedupe (fun n hn => h n (List.mem_append_left _ hn)) held

end MappingMetadata.Override
