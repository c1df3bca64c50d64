import MappingMetadata.Proofs.Entity.Enrolling
import MappingMetadata.Proofs.Entity.Placement
import MappingMetadata.Proofs.Index.Confinement
import MappingMetadata.Proofs.Index.Frame

/-!
# An entity and its class

What an entity has to write depends on the lists of its own class alone (`writes_congr`). What it
writes touches these lists, and those of callbacks: the callbacks of a listener go to the class of
the listener (`touches_of_mem_writes`). No entity reads the lists of callbacks. So an entity changes
no entry of the index but that of its class and those of its listeners (`className_mem_touched`).
-/

namespace MappingMetadata

theorem Kind.isCallback_of_slot {k k' : Kind} (h : k.isCallback) (hslot : k.slot = k'.slot) :
    k'.isCallback := by
  have hall : ∀ k ∈ all, ∀ k' ∈ all, k.isCallback → k.slot = k'.slot → k'.isCallback := by
    decide +kernel
  exact hall k (mem_all k) k' (mem_all k') h hslot

theorem Kind.eq_access_of_slot {k : Kind} (h : Kind.access.slot = k.slot) : k = .access := by
  cases k <;> first | rfl | cases h

/-! ## Reading -/

namespace Piece

/-- The piece reads lists of one class at most. -/
def Reads (c : String) : Piece → Prop
  | fixed _ => True
  | overrides _ _ site => site.className = c

theorem On.reads {site : Site} {p : Piece} (h : p.On site) : p.Reads site.className := by
  cases p with
  | fixed => trivial
  | overrides f declared site' => rw [show site' = site from h]; exact rfl

theorem annotations_congr {ctx : Context} {c : String} {p : Piece} (hp : p.Reads c)
    {ix ix' : Index} (h : ∀ k, ix'.ofKind c k = ix.ofKind c k) :
    p.annotations ctx ix' = p.annotations ctx ix := by
  cases p with
  | fixed => rfl
  | overrides f declared site =>
    have hsite : site.className = c := hp
    subst hsite
    have hmerge : Override.merge f ix' ctx.dedupe declared (some site) =
        Override.merge f ix ctx.dedupe declared (some site) := by
      rw [Override.merge_some, Override.merge_some, Index.indexed_congr h f]
    change ctx.overrides ix' f declared site = ctx.overrides ix f declared site
    unfold Context.overrides Override.mergedAnnotation
    rw [hmerge]

theorem collect_congr {ctx : Context} {c : String} {ps : List Piece} (hps : ∀ p ∈ ps, p.Reads c)
    {ix ix' : Index} (h : ∀ k, ix'.ofKind c k = ix.ofKind c k) :
    collect ctx ix' ps = collect ctx ix ps := by
  induction ps with
  | nil => rfl
  | cons p ps ih =>
    rw [List.forall_mem_cons] at hps
    rw [collect, collect, annotations_congr hps.1 h, ih hps.2]

end Piece

namespace Declaration.Entity

theorem reads_pieces (e : Entity) (ctx : Context) (className : String) (ofClass : Option Access) :
    ∀ p ∈ e.pieces ctx className ofClass, p.Reads className := by
  obtain ⟨ps, hps, hpieces⟩ := e.exists_classPieces ctx className ofClass
  intro p hp
  rw [hpieces] at hp
  simp only [List.mem_append, List.mem_flatMap, List.mem_cons, List.not_mem_nil, or_false] at hp
  rcases hp with hp | rfl | ⟨x, -, hp⟩ | rfl | rfl | rfl
  · exact (hps p hp).reads
  · trivial
  · have hreads := (x.on_pieces ctx _ p hp).reads
    rwa [Access.className_site] at hreads
  · trivial
  · trivial
  · trivial

/-- **What an entity has to write depends on the lists of its class alone.** -/
theorem writes_congr (e : Entity) (ctx : Context) {className : String} {ix ix' : Index}
    (h : ∀ k, ix'.ofKind className k = ix.ofKind className k) :
    e.writes ctx className ix' = e.writes ctx className ix := by
  have haccess : ctx.access? ix' className = ctx.access? ix className := by
    unfold Context.access?
    rw [Index.access?_congr (h .access)]
  rw [writes, writes, haccess]
  exact Piece.collect_congr (e.reads_pieces ctx className _) h

/-! ## Writing -/

/-- **What an entity writes touches its own class, and callbacks.** -/
theorem touches_of_mem_writes {e : Entity} {ctx : Context} {className : String} {ix : Index}
    {as : List Annotation} (h : e.writes ctx className ix = .ok as) {a : Annotation} (ha : a ∈ as)
    {c : String} {k : Kind} (htouch : a.Touches c k) : className = c ∨ k.isCallback := by
  obtain ⟨p, rfl, hplaced⟩ := exists_placed h
  obtain ⟨site, hsite, hclass | ⟨hkind, -⟩⟩ := hplaced.exists_site ha
  · have hc := htouch.1
    rw [hsite, Option.map_some, Option.some.injEq] at hc
    exact Or.inl (hclass.symm.trans hc)
  · exact Or.inr (Kind.isCallback_of_slot hkind htouch.2)

/-- Enrolling touches the access types of the class of the entity only. -/
theorem touches_of_mem_accessWrites {e : Entity} {d : Defaults} {a : Annotation}
    (ha : a ∈ e.accessWrites d) {c : String} {k : Kind} (htouch : a.Touches c k) :
    d.qualify e.className = c ∧ k = .access := by
  obtain ⟨access, -, rfl⟩ := Option.map_eq_some_iff.1 (Option.mem_toList.1 ha)
  exact ⟨Option.some.inj htouch.1, Kind.eq_access_of_slot htouch.2⟩

/-! ## Classes -/

/-- The class of an entity and those of its listeners. -/
def touched (e : Entity) (ctx : Context) : List String :=
  let className := ctx.defaults.qualify e.className
  className :: e.entityListeners.filterMap fun l => (l.resolve ctx className).toOption

theorem mem_touched_iff {e : Entity} {ctx : Context} {c : String} :
    c ∈ e.touched ctx ↔ ctx.defaults.qualify e.className = c ∨
      ∃ l ∈ e.entityListeners, l.resolve ctx (ctx.defaults.qualify e.className) = .ok c := by
  simp only [touched, List.mem_cons, List.mem_filterMap, Outcome.toOption_eq_some_iff,
    eq_comm (a := c)]

/-- **All that an entity writes is on its class or on those of its listeners.** -/
theorem className_mem_touched {e : Entity} {ctx : Context} {ix : Index} {as : List Annotation}
    (h : e.writes ctx (ctx.defaults.qualify e.className) ix = .ok as) {a : Annotation}
    (ha : a ∈ as) {site : Site} (hsite : a.site = some site) :
    site.className ∈ e.touched ctx := by
  obtain ⟨p, rfl, hplaced⟩ := exists_placed h
  obtain ⟨site', hsite', hclass⟩ := hplaced.exists_site ha
  obtain rfl : site' = site := Option.some.inj (hsite'.symm.trans hsite)
  exact mem_touched_iff.2 (hclass.imp Eq.symm And.right)

/-- Enrolling changes the entry of the class of the entity only. -/
theorem confined_enrolled (e : Entity) (d : Defaults) :
    Index.Confined [d.qualify e.className] fun ix => e.enrolled d ix := by
  have hentered : Index.Confined [d.qualify e.className] fun ix =>
      if e.metadataComplete then (ix.enter (d.qualify e.className)).markComplete
        (d.qualify e.className) else ix.enter (d.qualify e.className) := by
    cases e.metadataComplete with
    | false => exact Index.confined_enter _
    | true => exact (Index.confined_markComplete _).comp (Index.confined_enter _)
  unfold enrolled
  cases e.access with
  | none => exact hentered
  | some access =>
    refine Index.Confined.comp (Index.confined_write fun site hsite => ?_) hentered
    cases hsite
    exact List.mem_singleton_self _

end Declaration.Entity

end MappingMetadata
