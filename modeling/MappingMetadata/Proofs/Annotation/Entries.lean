import Mathlib.Data.List.Forall2
import MappingMetadata.Attributes

/-!
# What entries state

An annotation made from entries is determined by what they state (`ofEntries_congr`): each name with
the value that it is given, and nothing for what is absent or empty. The one annotation for a list
of items is determined by the annotations of the items (`ofItems_congr`).
-/

namespace MappingMetadata

/-- What entries state, in order; a name may be stated several times. -/
def Entry.stated (entries : List (String × Entry)) : List (String × Value) :=
  entries.filterMap fun p => p.2.value?.map fun v => (p.1, v)

theorem Entry.stated_cons (p : String × Entry) (entries : List (String × Entry)) :
    stated (p :: entries) = (p.2.value?.map fun v => (p.1, v)).toList ++ stated entries := by
  unfold stated
  cases h : p.2.value? <;> simp [h]

theorem Entry.stated_append (entries entries' : List (String × Entry)) :
    stated (entries ++ entries') = stated entries ++ stated entries' := List.filterMap_append

theorem Attributes.ofEntries_eq (entries : List (String × Entry)) :
    ofEntries entries = Assoc.ofList (Entry.stated entries) := by
  suffices h : ∀ fields : Attributes,
      entries.foldl (fun fields p => add fields p.1 p.2) fields =
        (Entry.stated entries).foldl (fun m p => Assoc.put m p.1 p.2) fields from h []
  induction entries with
  | nil => exact fun fields => rfl
  | cons p entries ih =>
    intro fields
    rw [List.foldl_cons, ih, Entry.stated_cons, List.foldl_append, add]
    cases p.2.value? <;> rfl

namespace Annotation

theorem nodup_keys_ofEntries (entries : List (String × Entry)) :
    (Assoc.keys (Attributes.ofEntries entries)).Nodup := by
  rw [Attributes.ofEntries_eq]
  exact Assoc.nodup_ofList _

/-- **Entries that state the same make the same annotation.** -/
theorem ofEntries_congr {kind : Kind} {site : Option Site}
    {entries entries' : List (String × Entry)} (h : Entry.stated entries = Entry.stated entries') :
    ofEntries kind site entries = ofEntries kind site entries' := by
  rw [ofEntries, ofEntries, Attributes.ofEntries_eq, Attributes.ofEntries_eq, h]

/-- Items with the same annotations have the same annotation together. -/
theorem ofItems_congr {α β : Type} {plural : Kind} {one : α → Option Site → Annotation}
    {one' : β → Option Site → Annotation} {items : List α} {items' : List β}
    (h : List.Forall₂ (fun i j => ∀ site, one i site = one' j site) items items')
    (site : Option Site) : ofItems plural one site items = ofItems plural one' site items' := by
  have hmembers : items.map (fun i => one i none) = items'.map fun j => one' j none := by
    induction h with
    | nil => rfl
    | cons hij _ ih => rw [List.map_cons, List.map_cons, hij none, ih]
  match h with
  | .nil => rfl
  | .cons hij .nil => exact congrArg some (hij site)
  | .cons _ (.cons _ _) => exact congrArg (fun ms => some (wrapper plural site ms)) hmembers

theorem ofItems_map {α β : Type} {plural : Kind} {one : α → Option Site → Annotation}
    {one' : β → Option Site → Annotation} {g : β → α} (h : ∀ i site, one (g i) site = one' i site)
    (site : Option Site) (items : List β) :
    ofItems plural one site (items.map g) = ofItems plural one' site items :=
  ofItems_congr (List.forall₂_map_left_iff.2 (List.forall₂_same.2 fun i _ => h i)) site

end Annotation

end MappingMetadata
