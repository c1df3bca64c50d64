import MappingMetadata.Proofs.Annotation.Entries

/-!
# Revised annotations

A *rule* says for each name whether a field of that name is kept, and what becomes of its value.
Revising by names goes together with stating names again: what a rule shows of an annotation made
from entries is what it shows of the entries, one by one (`revised_ofEntries_congr`).
-/

namespace MappingMetadata

/-- What becomes of the values of each name; none for fields that are left out. -/
abbrev Rule := String → Option (Value → Value)

namespace Rule

/-- Every field stays as it is. -/
def keeping : Rule := fun _ => some id

/-- The fields of some names are left out. -/
def dropping (names : List String) : Rule := fun n => if n ∈ names then none else some id

/-- The value of one name is changed. -/
def changing (name : String) (g : Value → Value) : Rule :=
  fun n => if n = name then some g else some id

end Rule

namespace Attributes

variable (rule : Rule)

/-- The fields that a rule leaves. -/
def revise (fields : Attributes) : Attributes :=
  fields.filterMap fun p => (rule p.1).map fun g => (p.1, g p.2)

variable {rule}

theorem revise_cons_of_none {name : String} (h : rule name = none) (v : Value)
    (fields : Attributes) : revise rule ((name, v) :: fields) = revise rule fields :=
  List.filterMap_cons_none (by rw [h]; rfl)

theorem revise_cons_of_some {name : String} {g : Value → Value} (h : rule name = some g) (v : Value)
    (fields : Attributes) :
    revise rule ((name, v) :: fields) = (name, g v) :: revise rule fields :=
  List.filterMap_cons_some (by rw [h]; rfl)

theorem revise_stated_of_none {name : String} (h : rule name = none) (v : Option Value) :
    revise rule (v.map fun v => (name, v)).toList = [] := by
  cases v with
  | none => rfl
  | some v => exact revise_cons_of_none h v []

theorem revise_stated_of_some {name : String} {g : Value → Value} (h : rule name = some g)
    (v : Option Value) : revise rule (v.map fun v => (name, v)).toList =
      ((v.map g).map fun v => (name, v)).toList := by
  cases v with
  | none => rfl
  | some v => exact revise_cons_of_some h v []

theorem revise_append (fields fields' : Attributes) :
    revise rule (fields ++ fields') = revise rule fields ++ revise rule fields' :=
  List.filterMap_append

theorem revise_keeping (fields : Attributes) : revise Rule.keeping fields = fields :=
  List.filterMap_some

theorem get?_revise (fields : Attributes) (name : String) :
    Assoc.get? (revise rule fields) name =
      (rule name).bind fun g => (Assoc.get? fields name).map g := by
  induction fields with
  | nil => cases rule name <;> rfl
  | cons p fields ih =>
    obtain ⟨n, v⟩ := p
    by_cases hn : n = name
    · subst hn
      cases hr : rule n with
      | none => rw [revise_cons_of_none hr, ih, hr]; rfl
      | some g => simp [revise_cons_of_some hr, Assoc.get?]
    · cases hr : rule n with
      | none => simp [revise_cons_of_none hr, ih, Assoc.get?, hn]
      | some g => simp [revise_cons_of_some hr, ih, Assoc.get?, hn]

theorem revise_put_of_none {name : String} (h : rule name = none) (fields : Attributes)
    (v : Value) : revise rule (Assoc.put fields name v) = revise rule fields := by
  induction fields with
  | nil => exact revise_cons_of_none h v []
  | cons p fields ih =>
    obtain ⟨n, w⟩ := p
    by_cases hn : n = name
    · subst hn
      rw [Assoc.put, if_pos rfl, revise_cons_of_none h, revise_cons_of_none h]
    · rw [Assoc.put, if_neg hn]
      cases hr : rule n with
      | none => rw [revise_cons_of_none hr, revise_cons_of_none hr, ih]
      | some g => rw [revise_cons_of_some hr, revise_cons_of_some hr, ih]

theorem revise_put_of_some {name : String} {g : Value → Value} (h : rule name = some g)
    (fields : Attributes) (v : Value) :
    revise rule (Assoc.put fields name v) = Assoc.put (revise rule fields) name (g v) := by
  induction fields with
  | nil => exact revise_cons_of_some h v []
  | cons p fields ih =>
    obtain ⟨n, w⟩ := p
    by_cases hn : n = name
    · subst hn
      rw [Assoc.put, if_pos rfl, revise_cons_of_some h, revise_cons_of_some h, Assoc.put,
        if_pos rfl]
    · rw [Assoc.put, if_neg hn]
      cases hr : rule n with
      | none => rw [revise_cons_of_none hr, revise_cons_of_none hr, ih]
      | some g' => rw [revise_cons_of_some hr, revise_cons_of_some hr, ih, Assoc.put, if_neg hn]

/-- Stating names again and revising by names may be done in either order. -/
theorem revise_ofList (fields : Attributes) :
    revise rule (Assoc.ofList fields) = Assoc.ofList (revise rule fields) := by
  suffices h : ∀ m : Attributes,
      revise rule (fields.foldl (fun m p => Assoc.put m p.1 p.2) m) =
        (revise rule fields).foldl (fun m p => Assoc.put m p.1 p.2) (revise rule m) from h []
  induction fields with
  | nil => exact fun m => rfl
  | cons p fields ih =>
    intro m
    obtain ⟨n, v⟩ := p
    rw [List.foldl_cons, ih]
    cases hr : rule n with
    | none => rw [revise_put_of_none hr, revise_cons_of_none hr]
    | some g => rw [revise_put_of_some hr, revise_cons_of_some hr, List.foldl_cons]

end Attributes

namespace Annotation

/-- The annotation with the fields that a rule leaves. -/
def revised (rule : Rule) (a : Annotation) : Annotation :=
  { a with fields := Attributes.revise rule a.fields }

variable {rule : Rule}

theorem revised_keeping (a : Annotation) : a.revised Rule.keeping = a := by
  cases a
  exact congrArg (fun fields => Annotation.mk _ _ fields) (Attributes.revise_keeping _)

theorem field?_revised (a : Annotation) (name : String) :
    (a.revised rule).field? name = (rule name).bind fun g => (a.field? name).map g :=
  Attributes.get?_revise a.fields name

theorem kind_eq_of_revised_eq {a b : Annotation} {rule' : Rule}
    (h : a.revised rule = b.revised rule') : a.kind = b.kind := by
  have hkind : (a.revised rule).kind = (b.revised rule').kind := by rw [h]
  exact hkind

/-- What a rule shows of a field depends on what it shows of the annotation. -/
theorem map_field?_of_revised_eq {a b : Annotation} (h : a.revised rule = b.revised rule)
    {name : String} {g : Value → Value} (hg : rule name = some g) :
    (a.field? name).map g = (b.field? name).map g := by
  have hfield : (a.revised rule).field? name = (b.revised rule).field? name := by rw [h]
  rwa [field?_revised, field?_revised, hg] at hfield

/-- **A rule shows of an annotation what it shows of its entries.** -/
theorem revised_ofEntries_congr {kind : Kind} {site : Option Site}
    {entries entries' : List (String × Entry)}
    (h : List.Forall₂ (fun p q => p.1 = q.1 ∧
      ∀ g, rule p.1 = some g → p.2.value?.map g = q.2.value?.map g) entries entries') :
    (ofEntries kind site entries).revised rule = (ofEntries kind site entries').revised rule := by
  have hstated : Attributes.revise rule (Entry.stated entries) =
      Attributes.revise rule (Entry.stated entries') := by
    induction h with
    | nil => rfl
    | @cons p q entries entries' hpq _ ih =>
      obtain ⟨n, e⟩ := p
      obtain ⟨n', e'⟩ := q
      obtain ⟨rfl, hvalue⟩ : n = n' ∧ _ := hpq
      rw [Entry.stated_cons, Entry.stated_cons, Attributes.revise_append,
        Attributes.revise_append, ih]
      refine congrArg (· ++ _) ?_
      cases hr : rule n with
      | none => rw [Attributes.revise_stated_of_none hr, Attributes.revise_stated_of_none hr]
      | some g =>
        rw [Attributes.revise_stated_of_some hr, Attributes.revise_stated_of_some hr, hvalue g hr]
  unfold revised ofEntries
  rw [Attributes.ofEntries_eq, Attributes.ofEntries_eq]
  simp only [Attributes.revise_ofList, hstated]

end Annotation

end MappingMetadata
