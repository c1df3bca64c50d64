import Mathlib.Data.List.Forall2
import Mathlib.Data.List.Nodup
import Mathlib.Data.List.Perm.Subperm
import Mathlib.Data.Option.Basic
import MappingMetadata.Proofs.Annotation.Entries

/-!
# When annotations are the same

Annotations are compared field by field, in any order. For annotations that name no field twice
this comes down to a comparison name by name (`same_iff`), and for annotations made from entries
with the same names to a comparison entry by entry.

**Theorem (`same_ofEntries_iff`).** Two annotations made from entries with the same names, none of
them twice, are the same just when each two entries of a name state the same.

Entries of one form state the same just when what they are made of is equal, and nested
annotations just when they are the same. So annotations of one kind retain (`Retains`) what their
entries do, and a list of them tells how many there are (`rel_ofItems_iff`).
-/

namespace MappingMetadata

/-! ## Fields in any order -/

namespace Annotation

theorem sameList_iff {as bs : List Annotation} :
    sameList as bs ↔ List.Forall₂ (fun a b => a.same b) as bs := by
  induction as generalizing bs with
  | nil => cases bs <;> simp [sameList]
  | cons a as ih =>
    cases bs with
    | nil => simp [sameList]
    | cons b bs => rw [sameList, Bool.and_eq_true, ih, List.forall₂_cons]

theorem fieldsWithin_iff {fs gs : List (String × Value)} :
    fieldsWithin fs gs ↔ ∀ p ∈ fs, ∃ w, Assoc.get? gs p.1 = some w ∧ p.2.same w := by
  induction fs with
  | nil => simp [fieldsWithin]
  | cons p fs ih =>
    obtain ⟨n, v⟩ := p
    rw [fieldsWithin, Bool.and_eq_true, ih, List.forall_mem_cons]
    refine and_congr_left fun _ => ?_
    cases Assoc.get? gs n <;> simp

/-- The same value under each name. -/
def SameFields (fs gs : List (String × Value)) : Prop :=
  ∀ n, Option.Rel (fun v w => v.same w) (Assoc.get? fs n) (Assoc.get? gs n)

theorem SameFields.mem_keys_iff {fs gs : List (String × Value)} (h : SameFields fs gs)
    (n : String) : n ∈ Assoc.keys fs ↔ n ∈ Assoc.keys gs := by
  rw [← Assoc.get?_isSome_iff, ← Assoc.get?_isSome_iff]
  have hn := h n
  generalize Assoc.get? fs n = v at hn ⊢
  generalize Assoc.get? gs n = w at hn ⊢
  cases hn <;> simp

/-- Equally many fields, each of which is among the others: then no other is left over. -/
theorem sameFields_iff {fs gs : List (String × Value)} (hfs : (Assoc.keys fs).Nodup)
    (hgs : (Assoc.keys gs).Nodup) :
    SameFields fs gs ↔ fs.length = gs.length ∧ fieldsWithin fs gs := by
  rw [fieldsWithin_iff]
  constructor
  · intro h
    have hperm : (Assoc.keys fs).Perm (Assoc.keys gs) :=
      (List.perm_ext_iff_of_nodup hfs hgs).2 h.mem_keys_iff
    refine ⟨by simpa [Assoc.keys] using hperm.length_eq, fun p hp => ?_⟩
    have hn := h p.1
    rw [Assoc.get?_eq_some_of_mem hfs hp] at hn
    cases hg : Assoc.get? gs p.1 with
    | none => rw [hg] at hn; cases hn
    | some w =>
      rw [hg] at hn
      cases hn with
      | some hsame => exact ⟨w, rfl, hsame⟩
  · rintro ⟨hlength, hwithin⟩ n
    have hsub : Assoc.keys fs ⊆ Assoc.keys gs := by
      intro m hm
      obtain ⟨p, hp, rfl⟩ := List.mem_map.1 hm
      obtain ⟨w, hw, -⟩ := hwithin p hp
      rw [← Assoc.get?_isSome_iff, hw, Option.isSome_some]
    have hperm : (Assoc.keys fs).Perm (Assoc.keys gs) :=
      (List.subperm_of_subset hfs hsub).perm_of_length_le (by simp [Assoc.keys, hlength])
    cases hf : Assoc.get? fs n with
    | some v =>
      obtain ⟨w, hw, hsame⟩ := hwithin _ (Assoc.mem_of_get? hf)
      rw [hw]
      exact .some hsame
    | none =>
      have hg : Assoc.get? gs n = none := by
        rw [← Option.not_isSome_iff_eq_none, Assoc.get?_isSome_iff, ← hperm.mem_iff,
          ← Assoc.get?_isSome_iff, hf]
        exact Bool.false_ne_true
      rw [hg]
      exact .none

theorem same_iff {a b : Annotation} (ha : (Assoc.keys a.fields).Nodup)
    (hb : (Assoc.keys b.fields).Nodup) :
    a.same b ↔ a.kind = b.kind ∧ a.site = b.site ∧ SameFields a.fields b.fields := by
  obtain ⟨k, s, fs⟩ := a
  obtain ⟨k', s', gs⟩ := b
  rw [same, sameFields_iff ha hb]
  simp only [Bool.and_eq_true, beq_iff_eq, and_assoc]

end Annotation

/-! ## What entries state -/

/-- Both entries state the same, or neither states anything. -/
def Entry.Same (e f : Entry) : Prop := Option.Rel (fun v w => v.same w) e.value? f.value?

namespace Annotation

theorem get?_of_not_mem_keys {entries : List (String × Entry)} {n : String}
    (h : n ∉ Assoc.keys entries) : Assoc.get? entries n = none := by
  rwa [← Option.not_isSome_iff_eq_none, Assoc.get?_isSome_iff]

/-- Entries with the same names state the same under each name when they do so pair by pair. -/
theorem forall_rel_iff_forall₂ {es fs : List (String × Entry)}
    (hkeys : Assoc.keys es = Assoc.keys fs) (hnodup : (Assoc.keys es).Nodup) :
    (∀ n, Option.Rel (fun v w => v.same w) ((Assoc.get? es n).bind Entry.value?)
        ((Assoc.get? fs n).bind Entry.value?)) ↔
      List.Forall₂ (fun p q => p.2.Same q.2) es fs := by
  induction es generalizing fs with
  | nil =>
    rw [List.map_eq_nil_iff.1 hkeys.symm]
    exact ⟨fun _ => .nil, fun _ _ => .none⟩
  | cons p es ih =>
    cases fs with
    | nil => cases hkeys
    | cons q fs =>
      obtain ⟨k, e⟩ := p
      obtain ⟨k', f⟩ := q
      have hcons : k = k' ∧ Assoc.keys es = Assoc.keys fs := List.cons.inj hkeys
      obtain ⟨rfl, htail⟩ := hcons
      have hnew : k ∉ Assoc.keys es ∧ (Assoc.keys es).Nodup := List.nodup_cons.1 hnodup
      rw [List.forall₂_cons, ← ih htail hnew.2]
      constructor
      · intro h
        refine ⟨by simpa [Assoc.get?, Entry.Same] using h k, fun n => ?_⟩
        by_cases hn : k = n
        · subst hn
          rw [get?_of_not_mem_keys hnew.1, get?_of_not_mem_keys (htail ▸ hnew.1)]
          exact .none
        · simpa [Assoc.get?, hn] using h n
      · rintro ⟨hfirst, hrest⟩ n
        by_cases hn : k = n
        · simpa [Assoc.get?, hn, Entry.Same] using hfirst
        · simpa [Assoc.get?, hn] using hrest n

/-- **Entry by entry.** -/
theorem same_ofEntries_iff {kind : Kind} {site : Option Site} {es fs : List (String × Entry)}
    (hkeys : Assoc.keys es = Assoc.keys fs) (hnodup : (Assoc.keys es).Nodup) :
    (ofEntries kind site es).same (ofEntries kind site fs) ↔
      List.Forall₂ (fun p q => p.2.Same q.2) es fs := by
  have hnames : SameFields (Attributes.ofEntries es) (Attributes.ofEntries fs) ↔
      List.Forall₂ (fun p q => p.2.Same q.2) es fs := by
    simp only [SameFields, Attributes.get?_ofEntries hnodup,
      Attributes.get?_ofEntries (hkeys ▸ hnodup)]
    exact forall_rel_iff_forall₂ hkeys hnodup
  rw [← hnames, same_iff (nodup_keys_ofEntries es) (nodup_keys_ofEntries fs)]
  exact ⟨fun h => h.2.2, fun h => ⟨rfl, rfl, h⟩⟩

end Annotation

/-! ## Retaining -/

/-- The annotations that are made are the same just when what is made of has the same form. -/
def Retains {α β : Type} (make : α → Annotation) (form : α → β) : Prop :=
  ∀ x y, (make x).same (make y) ↔ form x = form y

theorem rel_map_iff {α β γ : Type} {r : γ → γ → Prop} {f : α → γ} {g : α → β}
    (h : ∀ x y, r (f x) (f y) ↔ g x = g y) (o o' : Option α) :
    Option.Rel r (o.map f) (o'.map f) ↔ o.map g = o'.map g := by
  cases o <;> cases o' <;> simp [h]

/-- Annotations made from entries retain what the entries state together. -/
theorem retains_ofEntries {α β : Type} {kind : Kind} {site : Option Site}
    {entries : α → List (String × Entry)} {form : α → β}
    (hkeys : ∀ x y, Assoc.keys (entries x) = Assoc.keys (entries y))
    (hnodup : ∀ x, (Assoc.keys (entries x)).Nodup)
    (h : ∀ x y, List.Forall₂ (fun p q => p.2.Same q.2) (entries x) (entries y) ↔
      form x = form y) : Retains (fun x => .ofEntries kind site (entries x)) form := by
  intro x y
  refine Iff.trans ?_ (h x y)
  exact Annotation.same_ofEntries_iff (hkeys x y) (hnodup x)

theorem Retains.sameList_iff {α β : Type} {make : α → Annotation} {form : α → β}
    (h : Retains make form) (xs ys : List α) :
    Annotation.sameList (xs.map make) (ys.map make) ↔ xs.map form = ys.map form := by
  refine Annotation.sameList_iff.trans ?_
  rw [← List.forall₂_eq_eq_eq, List.forall₂_map_left_iff, List.forall₂_map_right_iff,
    List.forall₂_map_left_iff, List.forall₂_map_right_iff]
  simp only [h _ _]

namespace Annotation

theorem kind_eq_of_same {a b : Annotation} (h : a.same b) : a.kind = b.kind := by
  obtain ⟨k, s, fs⟩ := a
  obtain ⟨k', s', gs⟩ := b
  rw [same] at h
  simp only [Bool.and_eq_true, beq_iff_eq] at h
  exact h.1.1.1

theorem same_wrapper_iff {kind : Kind} {site : Option Site} {as bs : List Annotation} :
    (wrapper kind site as).same (wrapper kind site bs) ↔ sameList as bs := by
  simp [wrapper, same, fieldsWithin, Assoc.get?, Value.same]

/-- A list stands for no annotation, for the one of its item, or for a wrapper, and each of these
is told from the others: an item never stands for an annotation of the wrapping kind. -/
theorem rel_ofItems_iff {α β : Type} {plural : Kind} {one : α → Option Site → Annotation}
    {form : α → β} (h : ∀ site, Retains (fun x => one x site) form)
    (hkind : ∀ x site, (one x site).kind ≠ plural) (site : Option Site) (xs ys : List α) :
    Option.Rel (fun a b => a.same b) (ofItems plural one site xs) (ofItems plural one site ys) ↔
      xs.map form = ys.map form := by
  have hone : ∀ x, ofItems plural one site [x] = some (one x site) := fun _ => rfl
  have hmany : ∀ x x' xs, ofItems plural one site (x :: x' :: xs) =
      some (wrapper plural site ((x :: x' :: xs).map fun x => one x none)) := fun _ _ _ => rfl
  have hleft : ∀ x as, ¬ (one x site).same (wrapper plural site as) :=
    fun x _ hsame => hkind x site (kind_eq_of_same hsame)
  have hright : ∀ x as, ¬ (wrapper plural site as).same (one x site) :=
    fun x _ hsame => hkind x site (kind_eq_of_same hsame).symm
  match xs, ys with
  | [], [] => simp [ofItems]
  | [], [_] | [], _ :: _ :: _ | [_], [] | _ :: _ :: _, [] => simp [ofItems]
  | [x], [y] => simpa [hone] using h site x y
  | [x], y :: y' :: ys => simpa [hone, hmany] using hleft x _
  | x :: x' :: xs, [y] => simpa [hone, hmany] using hright y _
  | x :: x' :: xs, y :: y' :: ys =>
    rw [hmany, hmany, Option.rel_some_some, same_wrapper_iff]
    exact (h none).sameList_iff (x :: x' :: xs) (y :: y' :: ys)

end Annotation

namespace Entry

/-- Values of one form are stated alike when what they are made of is the same. -/
theorem rel_same_map_iff {α : Type} {f : α → Value} (hf : ∀ x y, (f x).same (f y) ↔ x = y)
    (o o' : Option α) :
    Option.Rel (fun v w : Value => v.same w) (o.map f) (o'.map f) ↔ o = o' := by
  rw [rel_map_iff (g := id) hf, Option.map_id_fun, id, id]

@[simp] theorem same_bool_iff {b c : Option Bool} : (bool b).Same (bool c) ↔ b = c :=
  rel_same_map_iff (fun x y => by simp [Value.same]) _ _

@[simp] theorem same_int_iff {m n : Option Int64} : (int m).Same (int n) ↔ m = n :=
  rel_same_map_iff (fun x y => by simp [Value.same]) _ _

@[simp] theorem same_constant_iff {typeName : String} {s t : Option String} :
    (constant typeName s).Same (constant typeName t) ↔ s = t :=
  rel_same_map_iff (fun x y => by simp [Value.same]) _ _

@[simp] theorem same_strings_iff {xs ys : List String} :
    (strings xs).Same (strings ys) ↔ xs = ys := by
  cases xs <;> cases ys <;> simp [Same, value?, Value.same]

variable {α β : Type} {make : α → Annotation} {form : α → β}

theorem same_nested_iff (h : Retains make form) (o o' : Option α) :
    (nested (o.map make)).Same (nested (o'.map make)) ↔ o.map form = o'.map form := by
  have hvalue : ∀ o : Option α, (nested (o.map make)).value? = o.map fun x => .nested (make x) :=
    fun o => Option.map_map ..
  rw [Same, hvalue, hvalue]
  refine rel_map_iff (fun x y => ?_) o o'
  rw [Value.same]
  exact h x y

theorem same_array_iff (h : Retains make form) (xs ys : List α) :
    (array (xs.map make)).Same (array (ys.map make)) ↔ xs.map form = ys.map form := by
  rw [← h.sameList_iff]
  cases xs <;> cases ys <;> simp [Same, value?, Value.same, Annotation.sameList]

end Entry

end MappingMetadata
