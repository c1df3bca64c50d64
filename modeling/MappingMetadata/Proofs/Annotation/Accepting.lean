import MappingMetadata.Proofs.Annotation.Entries
import MappingMetadata.Proofs.Assoc

/-!
# Entries one after another

An entry is *accepted* with a value (`Entry.Accepts`), or it is rejected because nothing or
something empty is stated. Entries may come in any order and under any names, the same name several
times.

**Theorem (`ofEntries_accepted`).** The annotation has one field for each name under which an entry
was accepted. The fields stand in the order of the first accepted entries of their names and have
the values of the last ones. Rejected entries leave no trace.

Names and values follow from one step: an accepted entry puts its value under its name, a rejected
one does nothing (`ofEntries_concat`).
-/

namespace MappingMetadata

namespace Entry

/-- The value with which an entry is accepted. There is none for what is absent, for an empty text
or class name, and for an empty list. Only a carried value may be empty. -/
inductive Accepts : Entry → Value → Prop
  | string {s : String} (h : s ≠ "") : Accepts (.string (some s)) (.string s)
  | bool (b : Bool) : Accepts (.bool (some b)) (.bool b)
  | int (n : Int64) : Accepts (.int (some n)) (.int n)
  | constant (typeName tag : String) :
    Accepts (.constant typeName (some tag)) (.constant typeName tag)
  | classRef {name : String} (h : name ≠ "") : Accepts (.classRef (some name)) (.classRef name)
  | strings {items : List String} (h : items ≠ []) : Accepts (.strings items) (.strings items)
  | constants (typeName : String) {tags : List String} (h : tags ≠ []) :
    Accepts (.constants typeName tags) (.constants typeName tags)
  | classRefs {names : List String} (h : names ≠ []) : Accepts (.classRefs names) (.classRefs names)
  | nested (a : Annotation) : Accepts (.nested (some a)) (.nested a)
  | array {items : List Annotation} (h : items ≠ []) : Accepts (.array items) (.array items)
  | carried (v : Value) : Accepts (.carried (some v)) v

/-- Is the entry accepted with some value? -/
def Accepted (e : Entry) : Prop := ∃ v, e.Accepts v

theorem value?_eq_some_iff {e : Entry} {v : Value} : e.value? = some v ↔ e.Accepts v := by
  constructor
  · intro h
    cases e with
    | string s | classRef s =>
      obtain ⟨t, ht, rfl⟩ := Option.map_eq_some_iff.1 h
      obtain ⟨rfl, hne⟩ := Option.filter_eq_some_iff.1 ht
      constructor
      simpa using hne
    | bool b | int b | constant typeName b | nested b =>
      obtain ⟨b, rfl, rfl⟩ := Option.map_eq_some_iff.1 h
      constructor
    | strings items | constants typeName items | classRefs items | array items =>
      obtain ⟨hne, hv⟩ := Option.ite_none_left_eq_some.1 h
      cases hv
      constructor
      simpa using hne
    | carried v' =>
      cases h
      constructor
  · intro h
    cases h <;> simp [value?, *]

theorem accepted_iff_isSome {e : Entry} : e.Accepted ↔ e.value?.isSome := by
  rw [Option.isSome_iff_exists]
  exact exists_congr fun v => value?_eq_some_iff.symm

instance (e : Entry) : Decidable e.Accepted := decidable_of_iff _ accepted_iff_isSome.symm

end Entry

open Entry

/-! ## Adding entries -/

namespace Attributes

theorem add_of_accepts {e : Entry} {v : Value} (h : e.Accepts v) (fields : Attributes)
    (name : String) : fields.add name e = Assoc.put fields name v := by
  rw [add, value?_eq_some_iff.2 h]

/-- A rejected entry does nothing. -/
theorem add_of_not_accepted {e : Entry} (h : ¬ e.Accepted) (fields : Attributes) (name : String) :
    fields.add name e = fields := by
  rw [accepted_iff_isSome, Option.not_isSome_iff_eq_none] at h
  rw [add, h]

theorem ofEntries_concat (calls : List (String × Entry)) (c : String × Entry) :
    ofEntries (calls ++ [c]) = (ofEntries calls).add c.1 c.2 := List.foldl_append

/-- Nothing but the accepted entries counts. -/
theorem ofEntries_filter_accepted (calls : List (String × Entry)) :
    ofEntries (calls.filter fun c => c.2.Accepted) = ofEntries calls := by
  induction calls using List.reverseRecOn with
  | nil => rfl
  | append_singleton calls c ih =>
    rw [List.filter_append, ofEntries_concat]
    by_cases hc : c.2.Accepted
    · rw [List.filter_singleton, decide_eq_true hc, cond_true, ofEntries_concat, ih]
    · rw [List.filter_singleton, decide_eq_false hc, cond_false, List.append_nil, ih,
        add_of_not_accepted hc]

theorem keys_ofEntries (calls : List (String × Entry)) :
    Assoc.keys (ofEntries calls) =
      ((calls.filter fun c => c.2.Accepted).map Prod.fst).eraseDups := by
  induction calls using List.reverseRecOn with
  | nil => rfl
  | append_singleton calls c ih =>
    rw [ofEntries_concat, List.filter_append, List.map_append]
    by_cases hc : c.2.Accepted
    · obtain ⟨v, hv⟩ := hc
      rw [add_of_accepts hv, Assoc.keys_put, ih, List.filter_singleton, decide_eq_true ⟨v, hv⟩,
        cond_true, List.map_singleton, eraseDups_concat]
      simp only [List.mem_eraseDups]
    · rw [add_of_not_accepted hc, ih, List.filter_singleton, decide_eq_false hc, cond_false,
        List.map_nil, List.append_nil]

/-- The value of a name is that of the last entry that is accepted under it. -/
theorem get?_ofEntries_eq (calls : List (String × Entry)) (name : String) :
    Assoc.get? (ofEntries calls) name =
      (calls.reverse.find? fun c => c.1 = name ∧ c.2.Accepted).bind fun c => c.2.value? := by
  induction calls using List.reverseRecOn with
  | nil => rfl
  | append_singleton calls c ih =>
    rw [ofEntries_concat, get?_add, List.reverse_append, List.reverse_singleton,
      List.singleton_append, List.find?_cons]
    by_cases hname : c.1 = name
    · by_cases hc : c.2.Accepted
      · obtain ⟨v, hv⟩ := Option.isSome_iff_exists.1 (accepted_iff_isSome.1 hc)
        simp [hname, hc, hv]
      · have hnone : c.2.value? = none := by simpa [accepted_iff_isSome] using hc
        simp [hname, hc, hnone, ih]
    · simp [hname, ih]

theorem get?_ofEntries_eq_some_iff {calls : List (String × Entry)} {name : String} {v : Value} :
    Assoc.get? (ofEntries calls) name = some v ↔ ∃ before e after,
      calls = before ++ (name, e) :: after ∧ e.Accepts v ∧
        ∀ c ∈ after, c.1 = name → ¬ c.2.Accepted := by
  rw [get?_ofEntries_eq, Option.bind_eq_some_iff]
  constructor
  · rintro ⟨⟨name', e⟩, hfind, hvalue⟩
    obtain ⟨hc, after, before, hcalls, hafter⟩ := List.find?_eq_some_iff_append.1 hfind
    obtain ⟨rfl, -⟩ := of_decide_eq_true hc
    refine ⟨before.reverse, e, after.reverse, ?_, value?_eq_some_iff.1 hvalue, fun c hc => ?_⟩
    · simpa using congrArg List.reverse hcalls
    · simpa [imp_iff_not_or] using hafter c (List.mem_reverse.1 hc)
  · rintro ⟨before, e, after, rfl, hv, hafter⟩
    refine ⟨(name, e), List.find?_eq_some_iff_append.2 ⟨?_, after.reverse, before.reverse, ?_, ?_⟩,
      value?_eq_some_iff.2 hv⟩
    · exact decide_eq_true ⟨rfl, v, hv⟩
    · simp
    · intro c hc
      simpa [imp_iff_not_or] using hafter c (List.mem_reverse.1 hc)

theorem isEmpty_ofEntries_iff {calls : List (String × Entry)} :
    (ofEntries calls).isEmpty ↔ ∀ c ∈ calls, ¬ c.2.Accepted := by
  rw [List.isEmpty_iff]
  constructor
  · intro hempty c hc haccepted
    have hkey : c.1 ∈ Assoc.keys (ofEntries calls) := by
      rw [keys_ofEntries, List.mem_eraseDups]
      exact List.mem_map_of_mem (List.mem_filter.2 ⟨hc, decide_eq_true haccepted⟩)
    rw [hempty] at hkey
    cases hkey
  · intro h
    have hfilter : (calls.filter fun c => c.2.Accepted) = [] :=
      List.filter_eq_nil_iff.2 fun c hc => by simpa using h c hc
    rw [← ofEntries_filter_accepted, hfilter]
    rfl

end Attributes

open Attributes

/-- **What entries come to.** Take entries in any order, under any names. The names of the fields
are those of accepted entries, each once and in the order in which they were first accepted. Each
has the value of the last entry that was accepted under it. The rejected entries make no difference,
wherever they stand, and there are no fields up to an entry just when none has been accepted. -/
theorem Annotation.ofEntries_accepted (kind : Kind) (site : Option Site)
    (calls : List (String × Entry)) :
    let a := ofEntries kind site calls
    let accepted := calls.filter fun c => c.2.Accepted
    a.kind = kind ∧ a.site = site ∧
      (Assoc.keys a.fields).Nodup ∧
      Assoc.keys a.fields = (accepted.map Prod.fst).eraseDups ∧
      (∀ name v, (name, v) ∈ a.fields ↔ ∃ before e after,
        calls = before ++ (name, e) :: after ∧ e.Accepts v ∧
          ∀ c ∈ after, c.1 = name → ¬ c.2.Accepted) ∧
      a = ofEntries kind site accepted ∧
      ∀ n, (Attributes.ofEntries (calls.take n)).isEmpty ↔
        ∀ c ∈ calls.take n, ¬ c.2.Accepted := by
  intro a accepted
  have hnodup : (Assoc.keys a.fields).Nodup := nodup_keys_ofEntries calls
  refine ⟨rfl, rfl, hnodup, keys_ofEntries calls, fun name v => ?_, ?_, fun n =>
    isEmpty_ofEntries_iff⟩
  · rw [← get?_ofEntries_eq_some_iff]
    exact ⟨Assoc.get?_eq_some_of_mem hnodup, Assoc.mem_of_get?⟩
  · exact congrArg (fun fields => Annotation.mk kind site fields)
      (ofEntries_filter_accepted calls).symm

/-- A field keeps its place when its value is replaced, and its value when an empty one follows. -/
example : Annotation.fields (.ofEntries .column none [("name", .string (some "total")),
    ("length", .int (some 8)), ("nullable", .bool (some false)), ("name", .string (some "")),
    ("length", .int (some 9))]) =
      [("name", .string "total"), ("length", .int 9), ("nullable", .bool false)] := rfl

end MappingMetadata
