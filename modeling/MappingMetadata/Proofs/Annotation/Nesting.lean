import Mathlib.Data.List.Basic
import MappingMetadata.Attributes

/-!
# Nested annotations

The values of an annotation may nest further annotations. `Annotation.inner` lists them all, at
any depth. What is nested is *bare*: it sits on no site, and it is of one of the seven kinds that
are ever nested.

An annotation is *tidy* when all that is nested in it is bare. One made from entries is tidy when
its entries are (`tidy_ofEntries`), so a declaration need only look at the entries that nest.
-/

namespace MappingMetadata

/-! ## What is nested -/

mutual

/-- The annotations nested in a value, at any depth. -/
def Value.inner : Value → List Annotation
  | .nested a => a :: a.inner
  | .array as => Annotation.innerList as
  | _ => []

/-- The annotations nested in an annotation, at any depth. -/
def Annotation.inner : Annotation → List Annotation
  | ⟨_, _, fields⟩ => Annotation.innerFields fields

/-- The annotations of a list and those nested in them. -/
def Annotation.innerList : List Annotation → List Annotation
  | [] => []
  | a :: as => (a :: a.inner) ++ Annotation.innerList as

/-- The annotations nested in fields. -/
def Annotation.innerFields : List (String × Value) → List Annotation
  | [] => []
  | (_, v) :: fs => v.inner ++ Annotation.innerFields fs

end

theorem Annotation.innerList_eq (as : List Annotation) :
    innerList as = as.flatMap fun a => a :: a.inner := by
  induction as with
  | nil => rfl
  | cons a as ih => rw [innerList, ih, List.flatMap_cons]

theorem Annotation.inner_eq (a : Annotation) : a.inner = a.fields.flatMap fun p => p.2.inner := by
  obtain ⟨kind, site, fields⟩ := a
  rw [inner]
  induction fields with
  | nil => rfl
  | cons p fs ih => rw [innerFields, ih, List.flatMap_cons]

theorem Annotation.mem_inner_iff {a b : Annotation} :
    b ∈ a.inner ↔ ∃ p ∈ a.fields, b ∈ p.2.inner := by
  rw [inner_eq, List.mem_flatMap]

theorem Value.mem_inner_array_iff {as : List Annotation} {b : Annotation} :
    b ∈ (Value.array as).inner ↔ ∃ a ∈ as, b ∈ a :: a.inner := by
  rw [inner, Annotation.innerList_eq, List.mem_flatMap]

/-! ## Tidy annotations -/

/-- The kinds of the annotations that are nested in others. -/
def Kind.nestable : List Kind :=
  [.column, .joinColumn, .primaryKeyJoinColumn, .joinTable, .uniqueConstraint, .attributeOverride,
   .associationOverride]

/-- On no site, and of a kind that may be nested. -/
def Annotation.Bare (a : Annotation) : Prop := a.site = none ∧ a.kind ∈ Kind.nestable

/-- All that is nested in the value is bare. -/
def Value.Tidy (v : Value) : Prop := ∀ b ∈ v.inner, b.Bare

/-- All that is nested in the annotation is bare. -/
def Annotation.Tidy (a : Annotation) : Prop := ∀ b ∈ a.inner, b.Bare

/-- The value that an entry states is tidy. -/
def Entry.Tidy (e : Entry) : Prop := ∀ v, e.value? = some v → v.Tidy

theorem Annotation.tidy_iff {a : Annotation} : a.Tidy ↔ ∀ p ∈ a.fields, p.2.Tidy := by
  simp only [Tidy, Value.Tidy, mem_inner_iff]
  exact ⟨fun h p hp b hb => h b ⟨p, hp, hb⟩, fun h b ⟨p, hp, hb⟩ => h p hp b hb⟩

theorem Annotation.Tidy.of_field? {a : Annotation} (h : a.Tidy) {n : String} {v : Value}
    (hv : a.field? n = some v) : v.Tidy :=
  tidy_iff.1 h (n, v) (Assoc.mem_of_get? hv)

theorem Annotation.tidy_marker (kind : Kind) (site : Option Site) : (marker kind site).Tidy := by
  simp [tidy_iff, marker]

theorem Value.tidy_array {as : List Annotation} (h : ∀ a ∈ as, a.Bare ∧ a.Tidy) :
    (Value.array as).Tidy := by
  intro b hb
  obtain ⟨a, ha, hb⟩ := mem_inner_array_iff.1 hb
  rcases List.mem_cons.1 hb with rfl | hb
  · exact (h b ha).1
  · exact (h a ha).2 b hb

/-- The members of a tidy wrapper are bare and tidy. -/
theorem Annotation.Tidy.members {a : Annotation} (h : a.Tidy) {m : Annotation}
    (hm : m ∈ a.members) : m.Bare ∧ m.Tidy := by
  unfold Annotation.members at hm
  cases hv : a.field? "value" with
  | none => simp [hv] at hm
  | some v =>
    have htidy : v.Tidy := h.of_field? hv
    cases v with
    | array as =>
      have hmas : m ∈ as := by simpa [hv, Value.array?] using hm
      refine ⟨htidy m (Value.mem_inner_array_iff.2 ⟨m, hmas, List.mem_cons_self⟩), fun b hb => ?_⟩
      exact htidy b (Value.mem_inner_array_iff.2 ⟨m, hmas, List.mem_cons_of_mem _ hb⟩)
    | _ => simp [hv, Value.array?] at hm

/-! ## Annotations made from entries -/

/-- Every field is what one of the entries states under its name. -/
theorem Attributes.mem_ofEntries {entries : List (String × Entry)} {p : String × Value}
    (h : p ∈ ofEntries entries) : ∃ q ∈ entries, q.1 = p.1 ∧ q.2.value? = some p.2 := by
  suffices hfold : ∀ fields : Attributes,
      p ∈ entries.foldl (fun fields p => add fields p.1 p.2) fields →
      p ∈ fields ∨ ∃ q ∈ entries, q.1 = p.1 ∧ q.2.value? = some p.2 from
    (hfold [] h).resolve_left (by simp)
  clear h
  induction entries with
  | nil => exact fun fields h => Or.inl h
  | cons q entries ih =>
    intro fields h
    rcases ih _ h with h | ⟨r, hr, hrp⟩
    · unfold add at h
      cases hv : q.2.value? with
      | none => exact Or.inl (by simpa [hv] using h)
      | some v =>
        simp only [hv] at h
        rcases Assoc.mem_put h with rfl | h
        · exact Or.inr ⟨q, List.mem_cons_self, rfl, hv⟩
        · exact Or.inl h
    · exact Or.inr ⟨r, List.mem_cons_of_mem _ hr, hrp⟩

theorem Annotation.tidy_ofEntries {kind : Kind} {site : Option Site}
    {entries : List (String × Entry)} (h : ∀ p ∈ entries, p.2.Tidy) :
    (ofEntries kind site entries).Tidy := by
  rw [tidy_iff]
  intro p hp
  obtain ⟨q, hq, -, hv⟩ := Attributes.mem_ofEntries hp
  exact h q hq p.2 hv

namespace Entry

theorem tidy_nested {a : Option Annotation} (h : ∀ b ∈ a, b.Bare ∧ b.Tidy) : (nested a).Tidy := by
  intro v hv
  obtain ⟨b, rfl, rfl⟩ := Option.map_eq_some_iff.1 hv
  intro d hd
  rcases List.mem_cons.1 (by simpa [Value.inner] using hd : d ∈ b :: b.inner) with rfl | hd
  · exact (h d rfl).1
  · exact (h b rfl).2 d hd

theorem tidy_array {as : List Annotation} (h : ∀ a ∈ as, a.Bare ∧ a.Tidy) : (array as).Tidy := by
  intro v hv
  have hv' : v = .array as := by
    simp only [value?] at hv
    split at hv <;> cases hv
    rfl
  exact hv' ▸ Value.tidy_array h

theorem tidy_carried {v : Option Value} (h : ∀ w ∈ v, w.Tidy) : (carried v).Tidy :=
  fun w hw => h w hw

/-- Can the entry state a value that nests annotations? -/
def nests : Entry → Bool
  | nested _ | array _ | carried _ => true
  | _ => false

theorem tidy_of_not_nests {e : Entry} (h : e.nests = false) : e.Tidy := by
  intro v hv b hb
  have hplain : v.inner = [] := by
    cases e with
    | string _ | bool _ | int _ | constant _ _ | classRef _ =>
      obtain ⟨w, -, rfl⟩ := Option.map_eq_some_iff.1 hv
      rfl
    | strings _ | constants _ _ | classRefs _ =>
      simp only [value?] at hv
      split at hv <;> cases hv
      rfl
    | nested _ | array _ | carried _ => cases h
  rw [hplain] at hb
  cases hb

end Entry

/-- Entries that state plain data need no attention. -/
theorem Annotation.tidy_of_nesting {kind : Kind} {site : Option Site}
    {entries : List (String × Entry)} (h : ∀ p ∈ entries, p.2.nests → p.2.Tidy) :
    (ofEntries kind site entries).Tidy := by
  refine tidy_ofEntries fun p hp => ?_
  cases hn : p.2.nests with
  | true => exact h p hp hn
  | false => exact Entry.tidy_of_not_nests hn

end MappingMetadata
