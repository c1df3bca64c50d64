import MappingMetadata.Proofs.Annotation.Nesting

/-!
# The values in an annotation

`Annotation.values` lists the values of all fields of an annotation and of what is nested in it, at
any depth. To say that each of them has a property `Q` it is enough to look at the entries from
which annotations are made: `Entry.Ensures` asks that what an entry states has `Q` as long as the
classes it names have `P`.

**Theorem (`every_ofEntries`).** An annotation made from entries has `Q` throughout when the classes
that its entries name have `P`, and the annotations that they nest have `Q` throughout.
-/

namespace MappingMetadata

/-! ## Values at any depth -/

/-- The classes that a value names itself. -/
def Value.classNames : Value → List String
  | .classRef name => [name]
  | .classRefs names => names
  | _ => []

/-- The values of the fields of an annotation. -/
def Annotation.fieldValues (a : Annotation) : List Value := a.fields.map Prod.snd

/-- The values in an annotation, at any depth. -/
def Annotation.values (a : Annotation) : List Value := (a :: a.inner).flatMap fieldValues

/-- A value and the values in what it nests, at any depth. -/
def Value.values (v : Value) : List Value := v :: v.inner.flatMap Annotation.fieldValues

/-- Every value in the annotation has the property. -/
def Annotation.Every (Q : Value → Prop) (a : Annotation) : Prop := ∀ v ∈ a.values, Q v

/-- The value has the property, and every value in what it nests. -/
def Value.Every (Q : Value → Prop) (v : Value) : Prop := ∀ w ∈ v.values, Q w

theorem Annotation.mem_values_iff {a : Annotation} {v : Value} :
    v ∈ a.values ↔ ∃ p ∈ a.fields, v ∈ p.2.values := by
  unfold values Value.values
  rw [List.flatMap_cons, List.mem_append, List.mem_flatMap]
  constructor
  · rintro (hv | ⟨b, hb, hv⟩)
    · obtain ⟨p, hp, rfl⟩ := List.mem_map.1 hv
      exact ⟨p, hp, List.mem_cons_self⟩
    · obtain ⟨p, hp, hb⟩ := mem_inner_iff.1 hb
      exact ⟨p, hp, List.mem_cons_of_mem _ (List.mem_flatMap.2 ⟨b, hb, hv⟩)⟩
  · rintro ⟨p, hp, hv⟩
    rcases List.mem_cons.1 hv with rfl | hv
    · exact Or.inl (List.mem_map_of_mem hp)
    · obtain ⟨b, hb, hv⟩ := List.mem_flatMap.1 hv
      exact Or.inr ⟨b, mem_inner_iff.2 ⟨p, hp, hb⟩, hv⟩

variable {P : String → Prop} {Q : Value → Prop}

namespace Annotation

theorem every_iff {a : Annotation} : a.Every Q ↔ ∀ p ∈ a.fields, p.2.Every Q := by
  simp only [Every, Value.Every, mem_values_iff]
  exact ⟨fun h p hp v hv => h v ⟨p, hp, hv⟩, fun h v ⟨p, hp, hv⟩ => h p hp v hv⟩

theorem every_marker (kind : Kind) (site : Option Site) : (marker kind site).Every Q := by
  simp [every_iff, marker]

/-- On which site an annotation stands makes no difference to its values. -/
theorem every_withSite {a : Annotation} (site : Option Site) :
    (a.withSite site).Every Q ↔ a.Every Q := by
  rw [every_iff, every_iff, withSite]

theorem Every.of_field? {a : Annotation} (h : a.Every Q) {n : String} {v : Value}
    (hv : a.field? n = some v) : v.Every Q :=
  every_iff.1 h (n, v) (Assoc.mem_of_get? hv)

end Annotation

namespace Value

theorem every_of_inner_eq_nil {v : Value} (hv : v.inner = []) : v.Every Q ↔ Q v := by
  rw [Every, values, hv, List.flatMap_nil, List.forall_mem_singleton]

theorem every_nested_iff {a : Annotation} :
    (nested a).Every Q ↔ Q (nested a) ∧ a.Every Q := by
  rw [Every, values, List.forall_mem_cons, inner]
  rfl

theorem every_array_iff {as : List Annotation} :
    (array as).Every Q ↔ Q (array as) ∧ ∀ a ∈ as, a.Every Q := by
  rw [Every, values, List.forall_mem_cons, inner, Annotation.innerList_eq, List.flatMap_assoc,
    List.forall_mem_flatMap]
  rfl

end Value

/-- The members of a wrapper have the property when the wrapper has it. -/
theorem Annotation.Every.members {a : Annotation} (h : a.Every Q) {m : Annotation}
    (hm : m ∈ a.members) : m.Every Q := by
  unfold Annotation.members at hm
  cases hv : a.field? "value" with
  | none => simp [hv] at hm
  | some v =>
    have hevery : v.Every Q := h.of_field? hv
    cases v with
    | array as => exact (Value.every_array_iff.1 hevery).2 m (by simpa [hv, Value.array?] using hm)
    | _ => simp [hv, Value.array?] at hm

/-! ## Annotations made from entries -/

namespace Entry

/-- Is the value taken over as it is? -/
def isCarried : Entry → Bool
  | carried _ => true
  | _ => false

/-- Whatever an entry states of its own has `Q`, if the classes that it names have `P`. -/
def Ensures (P : String → Prop) (Q : Value → Prop) : Prop :=
  ∀ (e : Entry) (v : Value), e.isCarried = false → e.value? = some v →
    (∀ c ∈ v.classNames, P c) → Q v

/-- What an entry has to meet for its value to have `Q` throughout. -/
def Meets (P : String → Prop) (Q : Value → Prop) : Entry → Prop
  | classRef name => ∀ c ∈ name, P c
  | classRefs names => ∀ c ∈ names, P c
  | nested a => ∀ b ∈ a, b.Every Q
  | array as => ∀ a ∈ as, a.Every Q
  | carried v => ∀ w ∈ v, w.Every Q
  | _ => True

theorem every_value? (h : Ensures P Q) {e : Entry} (he : e.Meets P Q) {v : Value}
    (hv : e.value? = some v) : v.Every Q := by
  have hQ : e.isCarried = false → (∀ c ∈ v.classNames, P c) → Q v := fun hc => h e v hc hv
  -- What nests nothing is in question by itself only.
  cases e with
  | string _ | bool _ | int _ | constant _ _ =>
    obtain ⟨w, -, rfl⟩ := Option.map_eq_some_iff.1 hv
    exact (Value.every_of_inner_eq_nil rfl).2 (hQ rfl nofun)
  | strings _ | constants _ _ =>
    obtain ⟨-, hv⟩ := Option.ite_none_left_eq_some.1 hv
    cases hv
    exact (Value.every_of_inner_eq_nil rfl).2 (hQ rfl nofun)
  | classRef name =>
    obtain ⟨c, hc, rfl⟩ := Option.map_eq_some_iff.1 hv
    have hP : P c := he c (Option.filter_eq_some_iff.1 hc).1
    exact (Value.every_of_inner_eq_nil rfl).2 (hQ rfl (List.forall_mem_singleton.2 hP))
  | classRefs names =>
    obtain ⟨-, hv⟩ := Option.ite_none_left_eq_some.1 hv
    cases hv
    exact (Value.every_of_inner_eq_nil rfl).2 (hQ rfl he)
  | nested a =>
    obtain ⟨b, hb, rfl⟩ := Option.map_eq_some_iff.1 hv
    exact Value.every_nested_iff.2 ⟨hQ rfl nofun, he b hb⟩
  | array as =>
    obtain ⟨-, hv⟩ := Option.ite_none_left_eq_some.1 hv
    cases hv
    exact Value.every_array_iff.2 ⟨hQ rfl nofun, he⟩
  | carried w => exact he v hv

end Entry

namespace Annotation

/-- **An annotation has `Q` throughout when its entries see to it.** -/
theorem every_ofEntries (h : Entry.Ensures P Q) {kind : Kind} {site : Option Site}
    {entries : List (String × Entry)} (hentries : ∀ p ∈ entries, p.2.Meets P Q) :
    (ofEntries kind site entries).Every Q := by
  rw [every_iff]
  intro p hp
  obtain ⟨q, hq, -, hv⟩ := Attributes.mem_ofEntries hp
  exact Entry.every_value? h (hentries q hq) hv

/-- A wrapper holds what an entry for its members states. -/
theorem every_wrapper (h : Entry.Ensures P Q) {kind : Kind} {site : Option Site}
    {members : List Annotation} (hne : members ≠ []) (hmembers : ∀ m ∈ members, m.Every Q) :
    (wrapper kind site members).Every Q := by
  have hvalue : (Entry.array members).value? = some (.array members) :=
    if_neg (by simpa using hne)
  rw [every_iff, wrapper, List.forall_mem_singleton]
  exact Entry.every_value? h (e := .array members) hmembers hvalue

/-- The annotation for a list has `Q` throughout when those of its items have it. -/
theorem every_ofItems (h : Entry.Ensures P Q) {α : Type} {plural : Kind}
    {one : α → Option Site → Annotation} {site : Option Site} {items : List α}
    (hone : ∀ i ∈ items, ∀ site, (one i site).Every Q) {a : Annotation}
    (ha : ofItems plural one site items = some a) : a.Every Q := by
  match items with
  | [] => cases ha
  | [i] =>
    cases ha
    exact hone i List.mem_cons_self site
  | i :: j :: rest =>
    cases ha
    refine every_wrapper h (List.cons_ne_nil _ _) fun m hm => ?_
    obtain ⟨k, hk, rfl⟩ := List.mem_map.1 hm
    exact hone k hk none

end Annotation

end MappingMetadata
