import MappingMetadata.Proofs.Entity.Locality
import MappingMetadata.Proofs.Index.Growth
import MappingMetadata.Proofs.Session.Staging

/-!
# Enrolling all entities

What the index is like once all the entities of a document are enrolled: their classes are known,
their flags are set, and the access types that they declare are stated. All of this is there
already when the same entities are enrolled again. Processing then enters the classes of listeners
and no others (`mem_keys_stage`).
-/

namespace MappingMetadata.Session

open Declaration

variable (d : Defaults)

theorem enrolledAll_cons (e : Entity) (es : List Entity) (ix : Index) :
    enrolledAll d (e :: es) ix = enrolledAll d es (e.enrolled d ix) := rfl

/-- What enrolling writes. -/
def accessWrites (es : List Entity) : List Annotation := es.flatMap fun e => e.accessWrites d

theorem ofKind_enrolledAll (es : List Entity) (ix : Index) (c : String) (k : Kind) :
    (enrolledAll d es ix).ofKind c k = (ix.writeAll (accessWrites d es)).ofKind c k := by
  induction es generalizing ix with
  | nil => rfl
  | cons e es ih =>
    have hcons : accessWrites d (e :: es) = e.accessWrites d ++ accessWrites d es :=
      List.flatMap_cons
    rw [enrolledAll_cons, ih, hcons, Index.writeAll_append]
    exact Index.ofKind_writeAll_congr (e.ofKind_enrolled d ix c k) _

/-! ## Access types -/

/-- The access type that is declared for a class; the last one counts. -/
def declaredAccess (c : String) : List Entity → Option Access
  | [] => none
  | e :: es => (declaredAccess c es).or (if d.qualify e.className = c then e.access else none)

theorem access?_enrolledAll (es : List Entity) (ix : Index) (c : String) :
    (enrolledAll d es ix).access? c = (declaredAccess d c es).or (ix.access? c) := by
  induction es generalizing ix with
  | nil => rfl
  | cons e es ih => rw [enrolledAll_cons, ih, e.access?_enrolled, declaredAccess, Option.or_assoc]

/-! ## Classes -/

/-- Enrolling enters the classes of the entities, and no others. -/
theorem mem_keys_enrolledAll_iff (es : List Entity) (ix : Index) (c : String) :
    c ∈ (enrolledAll d es ix).classes.keys ↔
      c ∈ ix.classes.keys ∨ ∃ e ∈ es, d.qualify e.className = c := by
  induction es generalizing ix with
  | nil => simp [enrolledAll]
  | cons e es ih =>
    have henrolled : c ∈ (e.enrolled d ix).classes.keys ↔
        c ∈ ix.classes.keys ∨ d.qualify e.className = c := by
      rw [e.keys_enrolled]
      split
      · rename_i hmem
        exact ⟨Or.inl, fun h => h.elim id fun he => he ▸ hmem⟩
      · rw [List.mem_append, List.mem_singleton, eq_comm (a := c)]
    rw [enrolledAll_cons, ih, henrolled, or_assoc, List.exists_mem_cons_iff]

theorem extends_enrolledAll (es : List Entity) (ix : Index) : ix.Extends (enrolledAll d es ix) :=
  Index.extends_foldl (fun ix e => e.extends_enrolled d ix) es ix

/-- A class once known stays known, and its place among the classes with it. -/
theorem keys_prefix_enrolledAll (es : List Entity) (ix : Index) :
    ix.classes.keys <+: (enrolledAll d es ix).classes.keys :=
  (extends_enrolledAll d es ix).classes

/-- Enrolling entities of known classes enters none. -/
theorem keys_enrolledAll_of_mem {es : List Entity} {ix : Index}
    (h : ∀ e ∈ es, d.qualify e.className ∈ ix.classes.keys) :
    (enrolledAll d es ix).classes.keys = ix.classes.keys := by
  induction es generalizing ix with
  | nil => rfl
  | cons e es ih =>
    rw [List.forall_mem_cons] at h
    have hkeys : (e.enrolled d ix).classes.keys = ix.classes.keys := by
      rw [e.keys_enrolled]
      exact if_pos h.1
    rw [enrolledAll_cons, ih (by rw [hkeys]; exact h.2), hkeys]

/-! ## Flags -/

theorem isComplete_enrolledAll (es : List Entity) (ix : Index) (c : String) :
    (enrolledAll d es ix).isComplete c =
      (ix.isComplete c ||
        es.any fun e => e.metadataComplete && decide (d.qualify e.className = c)) := by
  induction es generalizing ix with
  | nil => simp [enrolledAll]
  | cons e es ih => rw [enrolledAll_cons, ih, e.isComplete_enrolled, List.any_cons, Bool.or_assoc]

/-! ## Staging -/

/-- What entities write is on the classes that they touch. -/
theorem className_mem_touched {ctx : Context} {es : List Entity} {ix : Index}
    {as : List Annotation} (h : writesAll ctx es ix = .ok as) {a : Annotation} (ha : a ∈ as)
    {site : Site} (hsite : a.site = some site) :
    site.className ∈ es.flatMap fun e => e.touched ctx := by
  induction es generalizing ix as with
  | nil =>
    cases h
    cases ha
  | cons e es ih =>
    obtain ⟨bs, rest, hbs, hrest, rfl⟩ := writesAll_cons_eq_ok_iff.1 h
    rw [List.flatMap_cons, List.mem_append]
    rcases List.mem_append.1 ha with ha | ha
    · exact Or.inl (Entity.className_mem_touched hbs ha hsite)
    · exact Or.inr (ih hrest ha)

variable {d}

/-- Staging enters the classes of the entities and of their listeners, and no others. -/
theorem mem_keys_stage {s : Session} {es : List Entity} {n : Nat} {ix : Index}
    (h : s.stage d es = .ok (n, ix)) {c : String} (hc : c ∈ ix.classes.keys) :
    c ∈ s.index.classes.keys ∨ c ∈ es.flatMap fun e => e.touched (s.context d) := by
  obtain ⟨-, as, has, -, rfl⟩ := stage_eq_ok_iff.1 h
  rcases (Index.mem_keys_writeAll_iff _ as c).1 hc with hc | ⟨a, ha, hclass⟩
  · refine ((mem_keys_enrolledAll_iff d es s.index c).1 hc).imp id ?_
    rintro ⟨e, he, rfl⟩
    exact List.mem_flatMap.2 ⟨e, he, Entity.mem_touched_iff.2 (Or.inl rfl)⟩
  · obtain ⟨site, hsite, rfl⟩ := Option.map_eq_some_iff.1 hclass
    exact Or.inr (className_mem_touched has ha hsite)

end MappingMetadata.Session
