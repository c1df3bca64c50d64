import Mathlib.Data.List.Basic
import Mathlib.Data.List.Induction
import MappingMetadata.Assoc

/-!
# The map of a list of pairs

Read off the list, without the map: the keys are its distinct keys in the order in which they
first occur (`keys_ofList`), and the value of a key is the last one (`get?_ofList`). So making a
map goes together with putting lists of different keys one after another (`ofList_append`) and
with leaving keys out (`ofList_filter`).
-/

namespace MappingMetadata

theorem eraseDups_concat {α : Type} [DecidableEq α] (xs : List α) (x : α) :
    (xs ++ [x]).eraseDups = if x ∈ xs then xs.eraseDups else xs.eraseDups ++ [x] := by
  rw [List.eraseDups_append]
  by_cases hx : x ∈ xs <;> simp [hx, List.removeAll, List.eraseDups_cons]

namespace Assoc

variable {κ ν : Type} [DecidableEq κ]

theorem ofList_concat (ps : List (κ × ν)) (p : κ × ν) :
    ofList (ps ++ [p]) = put (ofList ps) p.1 p.2 := List.foldl_append

theorem keys_ofList (ps : List (κ × ν)) : keys (ofList ps) = (keys ps).eraseDups := by
  induction ps using List.reverseRecOn with
  | nil => rfl
  | append_singleton ps p ih =>
    have hkeys : keys (ps ++ [p]) = keys ps ++ [p.1] := List.map_append
    rw [ofList_concat, keys_put, ih, hkeys, eraseDups_concat]
    simp only [List.mem_eraseDups]

theorem get?_ofList (ps : List (κ × ν)) (k : κ) :
    get? (ofList ps) k = (ps.reverse.find? fun p => p.1 = k).map Prod.snd := by
  induction ps using List.reverseRecOn with
  | nil => rfl
  | append_singleton ps p ih =>
    rw [ofList_concat, get?_put, ih, List.reverse_append, List.reverse_singleton,
      List.singleton_append, List.find?_cons]
    by_cases hp : p.1 = k <;> simp [hp]

/-- The values of a map, read off the list that it was made of. -/
theorem map_snd_ofList (ps : List (κ × ν)) :
    (ofList ps).map Prod.snd =
      (keys ps).eraseDups.filterMap fun k => (ps.reverse.find? fun p => p.1 = k).map Prod.snd := by
  rw [← filterMap_get?_keys (nodup_ofList ps), keys_ofList]
  exact List.filterMap_congr fun k _ => get?_ofList ps k

theorem mem_of_mem_ofList {ps : List (κ × ν)} {p : κ × ν} (h : p ∈ ofList ps) : p ∈ ps := by
  have hget := get?_eq_some_of_mem (nodup_ofList ps) h
  rw [get?_ofList] at hget
  obtain ⟨q, hq, hvalue⟩ := Option.map_eq_some_iff.1 hget
  have hfound := List.find?_some hq
  have hkey : q.1 = p.1 := of_decide_eq_true hfound
  rw [← Prod.ext hkey hvalue]
  exact List.mem_reverse.1 (List.mem_of_find?_eq_some hq)

/-! ## Parts of a list -/

theorem put_append_of_not_mem {m : List (κ × ν)} {k : κ} (h : k ∉ keys m) (m' : List (κ × ν))
    (v : ν) : put (m ++ m') k v = m ++ put m' k v := by
  induction m with
  | nil => rfl
  | cons p m ih =>
    have hcons : keys (p :: m) = p.1 :: keys m := rfl
    rw [hcons, List.mem_cons, not_or] at h
    rw [List.cons_append, put, if_neg (Ne.symm h.1), ih h.2, List.cons_append]

theorem ofList_append {ps qs : List (κ × ν)} (h : ∀ k ∈ keys qs, k ∉ keys ps) :
    ofList (ps ++ qs) = ofList ps ++ ofList qs := by
  induction qs using List.reverseRecOn with
  | nil => simp [ofList]
  | append_singleton qs q ih =>
    have hkeys : keys (qs ++ [q]) = keys qs ++ [q.1] := List.map_append
    rw [hkeys, List.forall_mem_append, List.forall_mem_singleton] at h
    have hq : q.1 ∉ keys (ofList ps) := fun hmem => h.2 ((mem_keys_ofList ps q.1).1 hmem)
    rw [← List.append_assoc, ofList_concat, ih h.1, ofList_concat, put_append_of_not_mem hq]

theorem filter_put (q : κ → Bool) (m : List (κ × ν)) (k : κ) (v : ν) :
    ((put m k v).filter fun p => q p.1) =
      if q k then put (m.filter fun p => q p.1) k v else m.filter fun p => q p.1 := by
  induction m with
  | nil => by_cases hk : q k <;> simp [put, hk]
  | cons p m ih =>
    obtain ⟨k₀, v₀⟩ := p
    by_cases h : k₀ = k
    · subst h
      by_cases hk : q k₀ <;> simp [put, hk]
    · by_cases h₀ : q k₀ <;> by_cases hk : q k <;> simp [put, h, h₀, hk, ih]

theorem ofList_filter (q : κ → Bool) (ps : List (κ × ν)) :
    ofList (ps.filter fun p => q p.1) = (ofList ps).filter fun p => q p.1 := by
  induction ps using List.reverseRecOn with
  | nil => rfl
  | append_singleton ps p ih =>
    rw [ofList_concat, filter_put, List.filter_append, ← ih]
    by_cases hp : q p.1
    · have hsingle : [p].filter (fun p => q p.1) = [p] := by simp [hp]
      rw [if_pos hp, hsingle, ofList_concat]
    · have hsingle : [p].filter (fun p => q p.1) = [] := by simp [hp]
      rw [if_neg hp, hsingle, List.append_nil]

end Assoc

end MappingMetadata
