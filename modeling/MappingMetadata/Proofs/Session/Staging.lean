import MappingMetadata.Proofs.Index.Slots
import MappingMetadata.Proofs.Outcome
import MappingMetadata.Session

/-!
# Staging

Staging enrols all the entities of a step and then processes them, on a copy of the index.
`stage_eq_ok_iff` says when it succeeds and what it leaves: one list of writes, made by the
entities one after another, applied to the index in which all of them are enrolled. `stage_eq` says
the same in one equation, with the error of a staging that fails.
-/

namespace MappingMetadata.Session

open Declaration

/-- The index once all entities are enrolled. -/
def enrolledAll (d : Defaults) (es : List Entity) (ix : Index) : Index :=
  es.foldl (fun ix e => e.enrolled d ix) ix

/-- What entities write one after another, each upon what those before it have written. -/
def writesAll (ctx : Context) : List Entity → Index → Outcome (List Annotation)
  | [], _ => .ok []
  | e :: es, ix => do
    let as ← e.writes ctx (ctx.defaults.qualify e.className) ix
    let rest ← writesAll ctx es (ix.writeAll as)
    return as ++ rest

theorem writesAll_cons_eq_ok_iff {ctx : Context} {e : Entity} {es : List Entity} {ix : Index}
    {as : List Annotation} :
    writesAll ctx (e :: es) ix = .ok as ↔
      ∃ bs rest, e.writes ctx (ctx.defaults.qualify e.className) ix = .ok bs ∧
        writesAll ctx es (ix.writeAll bs) = .ok rest ∧ as = bs ++ rest := by
  rw [writesAll]
  exact Outcome.bind_append_eq_ok_iff

theorem writesAll_append_eq_ok_iff {ctx : Context} {es fs : List Entity} {ix : Index}
    {as : List Annotation} :
    writesAll ctx (es ++ fs) ix = .ok as ↔
      ∃ bs cs, writesAll ctx es ix = .ok bs ∧ writesAll ctx fs (ix.writeAll bs) = .ok cs ∧
        as = bs ++ cs := by
  induction es generalizing ix as with
  | nil =>
    constructor
    · intro h
      exact ⟨[], as, rfl, h, rfl⟩
    · rintro ⟨bs, cs, hbs, hcs, rfl⟩
      cases hbs
      exact hcs
  | cons e es ih =>
    rw [List.cons_append, writesAll_cons_eq_ok_iff]
    constructor
    · rintro ⟨as₁, rest, has₁, hrest, rfl⟩
      obtain ⟨bs, cs, hbs, hcs, rfl⟩ := ih.1 hrest
      refine ⟨as₁ ++ bs, cs, writesAll_cons_eq_ok_iff.2 ⟨as₁, bs, has₁, hbs, rfl⟩, ?_,
        (List.append_assoc ..).symm⟩
      rw [Index.writeAll_append]
      exact hcs
    · rintro ⟨bs, cs, hbs, hcs, rfl⟩
      obtain ⟨as₁, rest, has₁, hrest, rfl⟩ := writesAll_cons_eq_ok_iff.1 hbs
      rw [Index.writeAll_append] at hcs
      exact ⟨as₁, rest ++ cs, has₁, ih.2 ⟨rest, cs, hrest, hcs, rfl⟩, List.append_assoc ..⟩

/-- What is written in all is written by the entities, each upon some index. -/
theorem exists_of_mem_writesAll {ctx : Context} {es : List Entity} {ix : Index}
    {as : List Annotation} (h : writesAll ctx es ix = .ok as) :
    (∀ e ∈ es, ∃ jx bs, e.writes ctx (ctx.defaults.qualify e.className) jx = .ok bs) ∧
      ∀ a ∈ as, ∃ e ∈ es, ∃ jx bs,
        e.writes ctx (ctx.defaults.qualify e.className) jx = .ok bs ∧ a ∈ bs := by
  induction es generalizing ix as with
  | nil =>
    cases h
    exact ⟨fun _ he => (List.not_mem_nil he).elim, fun _ ha => (List.not_mem_nil ha).elim⟩
  | cons e es ih =>
    obtain ⟨bs, rest, hbs, hrest, rfl⟩ := writesAll_cons_eq_ok_iff.1 h
    obtain ⟨hes, hmem⟩ := ih hrest
    refine ⟨List.forall_mem_cons.2 ⟨⟨ix, bs, hbs⟩, hes⟩, fun a ha => ?_⟩
    rcases List.mem_append.1 ha with ha | ha
    · exact ⟨e, List.mem_cons_self, ix, bs, hbs, ha⟩
    · obtain ⟨e', he', hwrites⟩ := hmem a ha
      exact ⟨e', List.mem_cons_of_mem _ he', hwrites⟩

/-- An entity together with the full name of its class. -/
def naming (d : Defaults) (e : Entity) : Entity × String := (e, d.qualify e.className)

theorem onCopy_enrolAll (d : Defaults) (es : List Entity) (ix : Index) :
    (enrolAll d es).onCopy ix =
      if es.any fun e => Text.isBlank e.className then .error .unnamedEntity
      else .ok (es.map (naming d), enrolledAll d es ix) := by
  induction es generalizing ix with
  | nil => rfl
  | cons e es ih =>
    have henrol : (e.enrol d).onCopy ix = if Text.isBlank e.className then .error .unnamedEntity
        else .ok (d.qualify e.className, e.enrolled d ix) := by
      rw [Change.onCopy, Entity.run_enrol]
      cases Text.isBlank e.className <;> rfl
    rw [enrolAll, Change.onCopy_bind, henrol, List.any_cons]
    cases hb : Text.isBlank e.className with
    | true => rfl
    | false =>
      rw [if_neg Bool.false_ne_true, Bool.false_or]
      change Change.onCopy (enrolAll d es >>= _) (e.enrolled d ix) = _
      rw [Change.onCopy_bind, ih]
      split <;> rfl

theorem onCopy_processAll (ctx : Context) (es : List Entity) (ix : Index) :
    (processAll ctx (es.map (naming ctx.defaults))).onCopy ix =
      (writesAll ctx es ix).map fun as => (as.length, ix.writeAll as) := by
  induction es generalizing ix with
  | nil => rfl
  | cons e es ih =>
    have hprocess : (e.process ctx (some (ctx.defaults.qualify e.className))).onCopy ix =
        (e.writes ctx (ctx.defaults.qualify e.className) ix).map fun as =>
          (as.length, ix.writeAll as) := by
      rw [Change.onCopy, Entity.run_process]
      cases e.writes ctx (ctx.defaults.qualify e.className) ix <;> rfl
    rw [List.map_cons, naming, processAll, Change.onCopy_bind, hprocess, writesAll]
    cases e.writes ctx (ctx.defaults.qualify e.className) ix with
    | error err => rfl
    | ok as =>
      change Change.onCopy (processAll ctx (es.map (naming ctx.defaults)) >>= _)
        (ix.writeAll as) = Except.map _ ((writesAll ctx es (ix.writeAll as)) >>= _)
      rw [Change.onCopy_bind, ih]
      cases writesAll ctx es (ix.writeAll as) with
      | error err => rfl
      | ok rest =>
        have hlength : as.length + rest.length = (as ++ rest).length := List.length_append.symm
        exact congrArg Except.ok (Prod.ext hlength (ix.writeAll_append as rest).symm)

theorem run_enrolAll (d : Defaults) (es : List Entity) (ix : Index)
    {enrolled : List (Entity × String)} {ix' : Index} :
    (enrolAll d es).run ix = .ok enrolled ix' ↔
      (∀ e ∈ es, ¬ Text.isBlank e.className) ∧ enrolled = es.map (naming d) ∧
        ix' = enrolledAll d es ix := by
  have hcopy : (enrolAll d es).onCopy ix = .ok (enrolled, ix') ↔
      (enrolAll d es).run ix = .ok enrolled ix' := Change.onCopy_eq_ok_iff
  rw [← hcopy, onCopy_enrolAll]
  by_cases hb : es.any fun e => Text.isBlank e.className
  · rw [if_pos hb]
    exact ⟨nofun, fun h => absurd hb (by simpa using h.1)⟩
  · rw [if_neg hb, Except.ok.injEq, Prod.mk.injEq]
    have hall : ∀ e ∈ es, ¬ Text.isBlank e.className := by simpa using hb
    exact ⟨fun h => ⟨hall, h.1.symm, h.2.symm⟩, fun h => ⟨h.2.1.symm, h.2.2.symm⟩⟩

theorem run_processAll {ctx : Context} {es : List Entity} {ix ix' : Index} {n : Nat} :
    (processAll ctx (es.map (naming ctx.defaults))).run ix = .ok n ix' ↔
      ∃ as, writesAll ctx es ix = .ok as ∧ n = as.length ∧ ix' = ix.writeAll as := by
  have hcopy : (processAll ctx (es.map (naming ctx.defaults))).onCopy ix = .ok (n, ix') ↔
      (processAll ctx (es.map (naming ctx.defaults))).run ix = .ok n ix' :=
    Change.onCopy_eq_ok_iff
  rw [← hcopy, onCopy_processAll, Outcome.map_eq_ok_iff]
  refine exists_congr fun as => and_congr_right fun _ => ?_
  rw [Prod.mk.injEq, eq_comm, eq_comm (a := ix.writeAll as)]

/-! ## Staging on a copy -/

/-- What entities write once all of them are enrolled; none may be without a name. -/
def stagedWrites (ctx : Context) (es : List Entity) (ix : Index) : Outcome (List Annotation) :=
  if es.any fun e => Text.isBlank e.className then .error .unnamedEntity
  else writesAll ctx es (enrolledAll ctx.defaults es ix)

theorem stagedWrites_eq_ok_iff {ctx : Context} {es : List Entity} {ix : Index}
    {as : List Annotation} : stagedWrites ctx es ix = .ok as ↔
      (∀ e ∈ es, ¬ Text.isBlank e.className) ∧
        writesAll ctx es (enrolledAll ctx.defaults es ix) = .ok as := by
  unfold stagedWrites
  split
  · rename_i hb
    exact ⟨nofun, fun h => absurd hb (by simpa using h.1)⟩
  · rename_i hb
    exact ⟨fun h => ⟨by simpa using hb, h⟩, And.right⟩

/-- **Staging in one equation**, its failures included. -/
theorem stage_eq (s : Session) (d : Defaults) (es : List Entity) :
    s.stage d es = (stagedWrites (s.context d) es s.index).map fun as =>
      (as.length, (enrolledAll d es s.index).writeAll as) := by
  rw [stage, mockAll, Change.onCopy_bind, onCopy_enrolAll, stagedWrites]
  split
  · rfl
  · exact onCopy_processAll (s.context d) es (enrolledAll d es s.index)

/-- **When staging succeeds, and what it leaves.** -/
theorem stage_eq_ok_iff {s : Session} {d : Defaults} {es : List Entity} {n : Nat} {ix : Index} :
    s.stage d es = .ok (n, ix) ↔
      (∀ e ∈ es, ¬ Text.isBlank e.className) ∧
        ∃ as, writesAll (s.context d) es (enrolledAll d es s.index) = .ok as ∧ n = as.length ∧
          ix = (enrolledAll d es s.index).writeAll as := by
  rw [stage_eq, Outcome.map_eq_ok_iff]
  simp only [stagedWrites_eq_ok_iff, Prod.mk.injEq]
  constructor
  · rintro ⟨as, ⟨hall, has⟩, rfl, rfl⟩
    exact ⟨hall, as, has, rfl, rfl⟩
  · rintro ⟨hall, as, has, rfl, rfl⟩
    exact ⟨as, ⟨hall, has⟩, rfl, rfl⟩

end MappingMetadata.Session
