import MappingMetadata.Proofs.Session.Enrolling
import MappingMetadata.Proofs.Session.Failure
import MappingMetadata.Proofs.Session.Values

/-!
# The classes in finished metadata

A class gets into the metadata as the value of a field, or as the class under which annotations
stand. Values name classes that were looked up (`Entry.Meets`). Annotations stand under the class of
an entity, which is not looked up, or under that of a listener, which is.

**Theorem (`strict_classNames`).** A strict session that started empty names no class but those it
knows.
-/

namespace MappingMetadata.Session

open Declaration

/-- The classes of the entities of a step, by their full names. -/
def classesOf (s : Session) : Step → List String
  | .document doc => doc.entities.map fun e => (s.defaultsFor doc).qualify e.className
  | .entity e => [s.settings.defaults.qualify e.className]
  | .globals _ => []

variable {P : String → Prop} {s : Session}

/-- The classes that entities touch are their own, and such as can be loaded. -/
theorem mem_touched {ctx : Context} (hpath : ctx.classPath.Within P) {es : List Entity} {c : String}
    (hc : c ∈ es.flatMap fun e => e.touched ctx) :
    c ∈ es.map (fun e => ctx.defaults.qualify e.className) ∨ P c := by
  obtain ⟨e, he, hc⟩ := List.mem_flatMap.1 hc
  obtain rfl | ⟨l, -, hl⟩ := Entity.mem_touched_iff.1 hc
  · exact Or.inl (List.mem_map_of_mem he)
  · exact Or.inr (Listener.within_resolve hpath hl)

/-- A class that is new after a step is that of one of its entities, or one that can be loaded. -/
theorem mem_keys_step (hpath : s.classPath.Within P) (t : Step) {c : String}
    (hc : c ∈ (s.step t).2.index.classes.keys) :
    c ∈ s.index.classes.keys ∨ ((s.step t).1.isOk ∧ c ∈ s.classesOf t) ∨ P c := by
  have hcontext : ∀ d, (s.context d).classPath.Within P := fun _ => hpath
  have ht := s.stepped t
  generalize s.step t = r at ht hc ⊢
  cases ht with
  | failed => exact Or.inl hc
  | document _ hstage =>
    refine (mem_keys_stage hstage hc).imp id fun hc => ?_
    exact (mem_touched (hcontext _) hc).imp (fun hc => ⟨rfl, hc⟩) id
  | @entity e _ _ hstage =>
    refine (mem_keys_stage hstage hc).imp id fun hc => ?_
    exact (mem_touched (hcontext _) hc).imp (fun hc => ⟨rfl, hc⟩) id
  | globals => exact Or.inl hc

theorem classesOf_congr {s' : Session} (h : s'.settings = s.settings) (t : Step) :
    s'.classesOf t = s.classesOf t := by
  cases t <;> simp only [classesOf, defaultsFor, h]

/-- **Where the classes of an index come from.** A class that is new after a run is that of an
entity of one of the steps that succeeded, or one that can be loaded. -/
theorem mem_keys_run (hpath : s.classPath.Within P) (ts : List Step) {c : String}
    (hc : c ∈ (s.run ts).2.index.classes.keys) :
    c ∈ s.index.classes.keys ∨ (∃ t ∈ s.survivors ts, c ∈ s.classesOf t) ∨ P c := by
  induction ts generalizing s with
  | nil => exact Or.inl hc
  | cons t ts ih =>
    -- Settings stay as they are, so later steps qualify class names as the first one does.
    obtain ⟨hsettings, hclassPath⟩ := s.settings_step t
    rw [survivors_cons]
    rcases ih (hclassPath ▸ hpath) hc with hc | ⟨t', ht', hc⟩ | hc
    · refine (mem_keys_step hpath t hc).imp id (Or.imp (fun ⟨hok, hc⟩ => ?_) id)
      rw [if_pos hok]
      exact ⟨t, List.mem_cons_self, hc⟩
    · refine Or.inr (Or.inl ⟨t', ?_, classesOf_congr hsettings t' ▸ hc⟩)
      split
      · exact List.mem_cons_of_mem _ ht'
      · exact ht'
    · exact Or.inr (Or.inr hc)

/-- **Strict sessions name known classes only.** After any run of a strict session that started
empty, every class in a value of the finished metadata, at whatever depth, is one of the known
classes, and annotations stand under the class of an entity of a step that succeeded or under a
known class. -/
theorem strict_classNames (settings : Settings) (hstrict : settings.strictClasses)
    (ts : List Step) :
    let finished := ((start settings).run ts).2.finish
    (∀ a ∈ finished.annotations, ∀ v ∈ a.values, ∀ c ∈ v.classNames,
        c ∈ settings.knownClasses) ∧
      ∀ c ∈ finished.classes.keys,
        (∃ t ∈ (start settings).survivors ts, c ∈ (start settings).classesOf t) ∨
          c ∈ settings.knownClasses := by
  have hpath : (start settings).classPath.Within (· ∈ settings.knownClasses) :=
    ClassPath.within_ofSettings hstrict
  have hensures : Entry.Ensures (· ∈ settings.knownClasses)
      fun v => ∀ c ∈ v.classNames, c ∈ settings.knownClasses := fun _ _ _ _ hv => hv
  exact ⟨every_finish hensures hpath settings ts,
    fun c hc => (mem_keys_run hpath ts hc).resolve_left List.not_mem_nil⟩

/-- An entity with a known id class and a known listener, and after it one that fails. -/
theorem classNames_with_listener :
    let settings : Settings := { strictClasses := true, knownClasses := ["Audit", "OrderId"] }
    let listener : Listener := { className := "Audit", callbacks := { postLoad := some "loaded" } }
    let ts : List Step :=
      [.entity { className := "Order", idClass := some "OrderId", entityListeners := [listener] },
        .entity { className := "Item", idClass := some "ItemId" }]
    let finished := ((start settings).run ts).2.finish
    finished.classes.keys = ["Order", "Audit"] ∧
      finished.annotations.flatMap (fun a => a.values.flatMap Value.classNames) =
        ["OrderId", "Audit"] ∧
      ∀ a ∈ finished.annotations, ∀ v ∈ a.values, ∀ c ∈ v.classNames,
        c ∈ settings.knownClasses := by
  intro settings listener ts finished
  exact ⟨by decide +kernel, by decide +kernel, (strict_classNames settings rfl ts).1⟩

end MappingMetadata.Session
