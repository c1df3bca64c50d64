import MappingMetadata.Proofs.Override.Canonical

/-!
# What an entity writes is sound

The pieces of an entity are the access type that it takes over, plain annotations, and merged
overrides.

**Theorem (`Entity.sound_writes`).** Whatever an entity writes into a canonical index is sound, so
the index stays canonical. Only for the overrides does this depend on the index.
-/

namespace MappingMetadata

variable {dedupe : Bool}

/-- What plain pieces write into a canonical index is sound, their overrides included. -/
theorem Piece.sound_collect {ctx : Context} {ix : Index} (hix : ix.Canonical ctx.dedupe)
    {ps : List Piece} (hps : ∀ p ∈ ps, p.Plain) {as : List Annotation}
    (h : collect ctx ix ps = .ok as) : ∀ a ∈ as, a.Sound ctx.dedupe := by
  intro a ha
  obtain ⟨p, hp, bs, hbs, ha⟩ := exists_of_mem_collect h ha
  cases p with
  | fixed cs => exact (hps _ hp bs hbs a ha).sound _
  | overrides f declared site =>
    obtain ⟨m, hm, rfl⟩ := Outcome.map_eq_ok_iff.1 hbs
    rw [Option.mem_toList] at ha
    cases ha
    exact Override.sound_of_merged hix hm

namespace Declaration.Entity

/-- **What an entity writes into a canonical index is sound.** -/
theorem sound_writes {e : Entity} {ctx : Context} {className : String} {ix : Index}
    (hix : ix.Canonical ctx.dedupe) {as : List Annotation}
    (h : e.writes ctx className ix = .ok as) : ∀ a ∈ as, a.Sound ctx.dedupe := by
  obtain ⟨bs, rest, hbs, hrest, rfl⟩ := Piece.collect_cons_eq_ok_iff.1 h
  cases hbs
  intro a ha
  rcases List.mem_append.1 ha with ha | ha
  · obtain ⟨access, -, rfl⟩ := Option.map_eq_some_iff.1 (Option.mem_toList.1 ha)
    exact access.sound_annotation className
  · exact Piece.sound_collect hix (e.plain_ownPieces ctx className _) hrest a ha

theorem canonical_enrolled (e : Entity) (d : Defaults) {ix : Index} (hix : ix.Canonical dedupe) :
    (e.enrolled d ix).Canonical dedupe := by
  have hentered : ∀ c : String,
      (if e.metadataComplete then (ix.enter c).markComplete c else ix.enter c).Canonical
        dedupe := by
    intro c
    split
    · exact (hix.enter c).markComplete c
    · exact hix.enter c
  unfold enrolled
  cases e.access with
  | none => exact hentered _
  | some access => exact (hentered _).write (access.sound_annotation _)

end Declaration.Entity

end MappingMetadata
