import MappingMetadata.Proofs.Session.Values

/-!
# Nothing empty is stated

An entry states nothing for a text that is empty, for a class without a name and for a list without
items. Only what is carried over is not looked at again. It comes from the index, where entries have
put it, so nothing empty can be in it either.

**Theorem (`finish_nonempty`).** In the metadata of a session that started empty no value is empty,
at any depth, whatever it was given to read and whatever its defaults are.
-/

namespace MappingMetadata

/-- Is the value an empty text, a class without a name, or a list without items? -/
def Value.isEmpty : Value → Bool
  | .string s => s.isEmpty
  | .classRef name => name.isEmpty
  | .strings items => items.isEmpty
  | .constants _ tags => tags.isEmpty
  | .classRefs names => names.isEmpty
  | .array items => items.isEmpty
  | _ => false

/-- What an entry states of its own is not empty, whatever classes it names. -/
theorem Entry.ensures_nonempty : Ensures (fun _ => True) fun v => v.isEmpty = false := by
  intro e v hcarried hv _
  cases e with
  | string s =>
    obtain ⟨s', hs, rfl⟩ := Option.map_eq_some_iff.1 hv
    simpa [Value.isEmpty] using (Option.filter_eq_some_iff.1 hs).2
  | classRef name =>
    obtain ⟨c, hc, rfl⟩ := Option.map_eq_some_iff.1 hv
    simpa [Value.isEmpty] using (Option.filter_eq_some_iff.1 hc).2
  | bool _ | int _ | constant _ _ | nested _ =>
    obtain ⟨w, -, rfl⟩ := Option.map_eq_some_iff.1 hv
    rfl
  | strings _ | constants _ _ | classRefs _ | array _ =>
    obtain ⟨hne, hv⟩ := Option.ite_none_left_eq_some.1 hv
    cases hv
    exact Bool.not_eq_true _ ▸ hne
  | carried _ => cases hcarried

namespace Session

open Declaration

/-- **Nothing empty is ever stated.** After any run of a session that started empty, under any
settings and any class path, no value in the finished metadata is empty, neither those of the
annotations nor those of what they nest. -/
theorem finish_nonempty (settings : Settings) (path : ClassPath) (ts : List Step) :
    ∀ a ∈ (((start settings).withClassPath path).run ts).2.finish.annotations,
      ∀ v ∈ a.values, v.isEmpty = false :=
  every_finish Entry.ensures_nonempty (fun _ _ _ => trivial) settings ts

/-- Empty members and an empty default schema; the override of `zip` is carried over by the second
document, and its column has kept only what was stated of it. -/
theorem nonempty_after_carrying :
    let settings : Settings := { defaults := { schema := some "" } }
    let items : AssociationAttribute :=
      { name := "items", joinTable := some { name := some "", schema := some "", catalog := none } }
    let zip : AttributeOverride :=
      { name := "zip", column := some { name := some "", table := some "ADDRESS" } }
    let ts : List Step :=
      [.entity { className := "Order", idClass := some "", attributeOverrides := [zip],
                 associations := [items] },
        .entity { className := "Order", attributeOverrides := [{ name := "city" }] }]
    let finished := (((start settings).withClassPath .everything).run ts).2.finish
    finished.annotations.map Annotation.kind = [.joinTable, .attributeOverrides] ∧
      (finished.annotations.flatMap fun a =>
        (a :: a.inner).flatMap fun b => Assoc.keys b.fields) =
        ["value", "name", "name", "column", "table"] ∧
      ∀ a ∈ finished.annotations, ∀ v ∈ a.values, v.isEmpty = false := by
  intro settings items zip ts finished
  exact ⟨by decide +kernel, by decide +kernel, finish_nonempty settings .everything ts⟩

end Session

end MappingMetadata
