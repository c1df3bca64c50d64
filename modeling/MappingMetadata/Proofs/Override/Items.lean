import MappingMetadata.Proofs.Declaration.Nesting
import MappingMetadata.Proofs.Override.Merging

/-!
# The annotations of merged overrides

An override leaves an annotation in the index, and a later document finds it there. What it can
tell from it is its name and the fields that its family keeps (`kept`).

**Theorem (`carry_annotation`).** The annotation of an override with a name can be carried over,
and gives the *settled* form of the override: its name and its kept fields. Settling is done once:
an override that was carried over is settled already (`settled_of_carry`).
-/

namespace MappingMetadata.Override.Item

variable {f : Family}

/-- The fields of an annotation that its family carries over. -/
def kept (f : Family) (a : Annotation) : Attributes :=
  f.carriedFields.filterMap fun n => (a.field? n).map fun v => (n, v)

theorem field?_of_mem_kept {a : Annotation} {p : String × Value} (h : p ∈ kept f a) :
    a.field? p.1 = some p.2 := by
  obtain ⟨m, -, hm⟩ := List.mem_filterMap.1 h
  obtain ⟨v, hv, rfl⟩ := Option.map_eq_some_iff.1 hm
  exact hv

theorem carry_eq_ok_iff {a : Annotation} {i : Item f} :
    carry a = .ok i ↔ ∃ n, a.name? = some n ∧ i = .carried n (kept f a) := by
  unfold carry
  cases a.name? with
  | none => simp
  | some n => simp [kept, eq_comm]

/-- Declared, or carried over from some annotation. -/
def Regular (i : Item f) : Prop := i.isDeclared ∨ ∃ a : Annotation, carry a = .ok i

/-! ## Entries -/

/-- What the annotation of an override states. -/
def entries (i : Item f) (d : Defaults) : List (String × Entry) :=
  match f, i with
  | .attributes, declared o => o.entries
  | .associations, declared o => o.entries d
  | _, carried n fields =>
    ("name", .string (some n)) :: fields.map fun p => (p.1, .carried (some p.2))

theorem annotation_eq (i : Item f) (d : Defaults) (site : Option Site) :
    i.annotation d site = .ofEntries f.scalar site (i.entries d) := by
  cases i <;> cases f <;> rfl

@[simp] theorem kind_annotation (i : Item f) (d : Defaults) (site : Option Site) :
    (i.annotation d site).kind = f.scalar := by
  rw [annotation_eq]
  rfl

@[simp] theorem site_annotation (i : Item f) (d : Defaults) (site : Option Site) :
    (i.annotation d site).site = site := by
  rw [annotation_eq]
  rfl

theorem kept_annotation (i : Item f) (d : Defaults) (site site' : Option Site) :
    kept f (i.annotation d site) = kept f (i.annotation d site') := by
  rw [annotation_eq, annotation_eq]
  rfl

theorem keys_kept_sublist (a : Annotation) : (Assoc.keys (kept f a)).Sublist f.carriedFields := by
  unfold kept Assoc.keys
  induction f.carriedFields with
  | nil => exact List.Sublist.refl _
  | cons n ns ih =>
    cases hv : a.field? n with
    | none => simpa [hv] using ih.cons n
    | some v => simpa [hv] using ih

theorem nodup_keys_entries {i : Item f} (h : i.Regular) (d : Defaults) :
    (Assoc.keys (i.entries d)).Nodup := by
  cases i with
  | declared o =>
    cases f <;> simp [entries, Assoc.keys, Declaration.AttributeOverride.entries,
      Declaration.AssociationOverride.entries]
  | carried n fields =>
    obtain h | ⟨a, ha⟩ := h
    · cases h
    · obtain ⟨m, -, hi⟩ := carry_eq_ok_iff.1 ha
      cases hi
      have hkeys : Assoc.keys ((carried n (kept f a) : Item f).entries d) =
          "name" :: Assoc.keys (kept f a) := by
        cases f <;> simp [entries, Assoc.keys, Function.comp_def]
      rw [hkeys]
      have hnodup : ("name" :: f.carriedFields).Nodup := by cases f <;> decide
      exact ((keys_kept_sublist a).cons_cons "name").nodup hnodup

theorem get?_name_entries (i : Item f) (d : Defaults) :
    Assoc.get? (i.entries d) "name" = some (.string (some i.name)) := by
  cases i <;> cases f <;> rfl

/-! ## Names -/

theorem annotation_field?_name {i : Item f} (h : i.Regular) (d : Defaults) (site : Option Site) :
    (i.annotation d site).field? "name" = if i.name = "" then none else some (.string i.name) := by
  rw [annotation_eq, Annotation.field?_ofEntries (nodup_keys_entries h d), get?_name_entries]
  by_cases hn : i.name = "" <;> simp [Entry.value?, Option.filter, hn]

theorem name?_annotation_eq {i : Item f} (h : i.Regular) (d : Defaults) (site : Option Site) :
    (i.annotation d site).name? = if i.name = "" then none else some i.name := by
  unfold Annotation.name? Annotation.string?
  rw [annotation_field?_name h]
  split <;> rfl

/-- An override with a name can be told by its name. -/
theorem name?_annotation {i : Item f} (h : i.Regular) (hn : i.name ≠ "") (d : Defaults)
    (site : Option Site) : (i.annotation d site).name? = some i.name := by
  rw [name?_annotation_eq h, if_neg hn]

/-! ## Carrying over -/

/-- The form in which an override is found again. -/
def settled (i : Item f) (d : Defaults) : Item f :=
  .carried i.name (kept f (i.annotation d none))

@[simp] theorem name_settled (i : Item f) (d : Defaults) : (i.settled d).name = i.name := rfl

/-- The annotation of an override with a name can be carried over. -/
theorem carry_annotation {i : Item f} (h : i.Regular) (hn : i.name ≠ "") (d : Defaults)
    (site : Option Site) : carry (i.annotation d site) = .ok (i.settled d) :=
  carry_eq_ok_iff.2 ⟨i.name, name?_annotation h hn d site, by
    rw [settled, kept_annotation i d none site]⟩

theorem get?_kept (a : Annotation) {n : String} (hn : n ∈ f.carriedFields) :
    Assoc.get? (kept f a) n = a.field? n := by
  unfold kept
  have hnodup : f.carriedFields.Nodup := by cases f <;> decide
  generalize f.carriedFields = names at hn hnodup ⊢
  induction names with
  | nil => cases hn
  | cons m ns ih =>
    rw [List.nodup_cons] at hnodup
    by_cases hm : m = n
    · subst hm
      cases hv : a.field? m with
      | some v => simp [hv, Assoc.get?]
      | none =>
        have hnone : Assoc.get? (ns.filterMap fun n => (a.field? n).map fun v => (n, v)) m =
            none := by
          rw [← Option.not_isSome_iff_eq_none, Assoc.get?_isSome_iff]
          intro hk
          obtain ⟨p, hp, rfl⟩ := List.mem_map.1 hk
          obtain ⟨n', hn', hp⟩ := List.mem_filterMap.1 hp
          obtain ⟨v, -, rfl⟩ := Option.map_eq_some_iff.1 hp
          exact hnodup.1 hn'
        simpa [hv] using hnone
    · have hns : n ∈ ns := (List.mem_cons.1 hn).resolve_left (Ne.symm hm)
      cases hv : a.field? m with
      | some v => simpa [hv, Assoc.get?, hm] using ih hns hnodup.2
      | none => simpa [hv] using ih hns hnodup.2

/-- What is carried over from an annotation is found again in the annotation made of it. -/
theorem field?_annotation_of_carry {a : Annotation} {i : Item f} (h : carry a = .ok i)
    (d : Defaults) (site : Option Site) {m : String} (hm : m ∈ f.carriedFields) :
    (i.annotation d site).field? m = a.field? m := by
  have hreg : i.Regular := Or.inr ⟨a, h⟩
  obtain ⟨n, -, hi⟩ := carry_eq_ok_iff.1 h
  have hname : "name" ≠ m := by
    rintro rfl
    cases f <;> simp [Family.carriedFields] at hm
  have hget : Assoc.get? (i.entries d) m = (a.field? m).map fun v => Entry.carried (some v) := by
    rw [hi, ← get?_kept a hm, ← Assoc.get?_map]
    cases f <;> simp [entries, Assoc.get?, hname]
  rw [annotation_eq, Annotation.field?_ofEntries (nodup_keys_entries hreg d), hget]
  cases a.field? m <;> rfl

/-- An override that was carried over is settled. -/
theorem settled_of_carry {a : Annotation} {i : Item f} (h : carry a = .ok i) (d : Defaults) :
    i.settled d = i := by
  obtain ⟨n, -, hi⟩ := carry_eq_ok_iff.1 h
  have hkept : kept f (i.annotation d none) = kept f a :=
    List.filterMap_congr fun m hm => by rw [field?_annotation_of_carry h d none hm]
  rw [settled, hkept, hi, name]

/-! ## Nesting -/

theorem tidy_annotation_declared {i : Item f} (h : i.isDeclared) (d : Defaults)
    (site : Option Site) : (i.annotation d site).Tidy := by
  cases i with
  | declared o =>
    cases f with
    | attributes => exact Declaration.AttributeOverride.tidy_annotation o site
    | associations => exact Declaration.AssociationOverride.tidy_annotation o d site
  | carried n fields => cases h

/-- What is carried over from a tidy annotation is tidy. -/
theorem tidy_annotation_of_carry {a : Annotation} {i : Item f} (h : carry a = .ok i)
    (ha : a.Tidy) (d : Defaults) (site : Option Site) : (i.annotation d site).Tidy := by
  obtain ⟨n, -, rfl⟩ := carry_eq_ok_iff.1 h
  refine Annotation.tidy_of_nesting fun p hp hn => ?_
  rcases List.mem_cons.1 hp with rfl | hp
  · cases hn
  · obtain ⟨q, hq, rfl⟩ := List.mem_map.1 hp
    exact Entry.tidy_carried fun w hw => by
      cases hw
      exact ha.of_field? (field?_of_mem_kept hq)

end MappingMetadata.Override.Item
