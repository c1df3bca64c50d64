import MappingMetadata.Proofs.Entity.Locality
import MappingMetadata.Proofs.Globals.Appending
import MappingMetadata.Proofs.Session.Enrolling
import MappingMetadata.Proofs.Session.Steps

/-!
# Documents one after another

Two documents may be put together into one, as long as no entity of the one has the class of an
entity of the other. In the joint document the entities of the second are enrolled before those of
the first are processed.

**Theorem (`document_append`).** The joint document succeeds when the first does and then the second
does. The lists of the index, its classes and flags, and the registry are then the same, and the
numbers in its report are the sums of those in the two reports.

Enrolling the second touches the access types of its own classes (`touches_of_mem_accessWrites`).
Processing the first touches the lists of its classes and, for a listener may be of any class, those
of callbacks (`touches_of_mem_writesAll`). So the two touch no list in common and can be made in
either order, and neither changes what the other has to write, for an entity reads the lists of its
class alone (`writesAll_congr`).
-/

namespace MappingMetadata

open Declaration

/-- The indexes have the same lists, classes and flags. The order of the classes may differ. -/
structure Index.Agrees (ix jx : Index) : Prop where
  lists : ∀ c k, ix.ofKind c k = jx.ofKind c k
  classes : ∀ c, c ∈ ix.classes.keys ↔ c ∈ jx.classes.keys
  complete : ∀ c, ix.isComplete c = jx.isComplete c

/-- Both documents in one, under the defaults of the first. -/
def Declaration.Document.append (first second : Document) : Document where
  defaults := first.defaults
  entities := first.entities ++ second.entities
  globals := first.globals.append second.globals

namespace Session

variable {ctx : Context} {d : Defaults} {es fs : List Entity} {ix : Index}

/-! ## What processing reads and touches -/

/-- What entities write depends on the lists of their classes alone. -/
theorem writesAll_congr {ix' : Index}
    (h : ∀ e ∈ es, ∀ k, ix'.ofKind (ctx.defaults.qualify e.className) k =
      ix.ofKind (ctx.defaults.qualify e.className) k) :
    writesAll ctx es ix' = writesAll ctx es ix := by
  induction es generalizing ix ix' with
  | nil => rfl
  | cons e es ih =>
    rw [List.forall_mem_cons] at h
    rw [writesAll, writesAll, e.writes_congr ctx h.1]
    cases e.writes ctx (ctx.defaults.qualify e.className) ix with
    | error err => rfl
    | ok as =>
      have hrest := ih fun e' he' k => Index.ofKind_writeAll_congr (h.2 e' he' k) as
      exact congrArg (fun r : Outcome (List Annotation) => do return as ++ (← r)) hrest

/-- What entities write touches their classes, and callbacks. -/
theorem touches_of_mem_writesAll {as : List Annotation} (h : writesAll ctx es ix = .ok as)
    {a : Annotation} (ha : a ∈ as) {c : String} {k : Kind} (htouch : a.Touches c k) :
    (∃ e ∈ es, ctx.defaults.qualify e.className = c) ∨ k.isCallback := by
  induction es generalizing ix as with
  | nil =>
    cases h
    cases ha
  | cons e es ih =>
    obtain ⟨bs, rest, hbs, hrest, rfl⟩ := writesAll_cons_eq_ok_iff.1 h
    rcases List.mem_append.1 ha with ha | ha
    · exact (Entity.touches_of_mem_writes hbs ha htouch).imp_left
        fun hc => ⟨e, List.mem_cons_self, hc⟩
    · exact (ih hrest ha).imp_left
        fun ⟨e', he', hc⟩ => ⟨e', List.mem_cons_of_mem _ he', hc⟩

/-- Enrolling touches the access types of the classes. -/
theorem touches_of_mem_accessWrites {a : Annotation} (ha : a ∈ accessWrites d es) {c : String}
    {k : Kind} (htouch : a.Touches c k) :
    (∃ e ∈ es, d.qualify e.className = c) ∧ k = .access := by
  obtain ⟨e, he, ha⟩ := List.mem_flatMap.1 ha
  obtain ⟨hc, hk⟩ := Entity.touches_of_mem_accessWrites ha htouch
  exact ⟨⟨e, he, hc⟩, hk⟩

/-! ## Enrolling and processing commute -/

theorem enrolledAll_append (d : Defaults) (es fs : List Entity) (ix : Index) :
    enrolledAll d (es ++ fs) ix = enrolledAll d fs (enrolledAll d es ix) := List.foldl_append

/-- No entity of the first list has the class of one of the second. -/
def Apart (d : Defaults) (es fs : List Entity) : Prop :=
  ∀ e ∈ es, ∀ f ∈ fs, d.qualify e.className ≠ d.qualify f.className

instance : Decidable (Apart d es fs) :=
  inferInstanceAs (Decidable (∀ e ∈ es, ∀ f ∈ fs, d.qualify e.className ≠ d.qualify f.className))

/-- Enrolling other classes makes no difference to what entities write. -/
theorem writesAll_enrolledAll (h : Apart ctx.defaults es fs) (ix : Index) :
    writesAll ctx es (enrolledAll ctx.defaults fs ix) = writesAll ctx es ix := by
  refine writesAll_congr fun e he k => ?_
  rw [ofKind_enrolledAll]
  refine Index.ofKind_writeAll_of_not_touches ix fun a ha htouch => ?_
  obtain ⟨⟨f, hf, hc⟩, -⟩ := touches_of_mem_accessWrites ha htouch
  exact h e he f hf hc.symm

/-- Entities can be enrolled before or after others are processed. -/
theorem ofKind_enrolledAll_writeAll (h : Apart ctx.defaults es fs) {as : List Annotation}
    (has : writesAll ctx es ix = .ok as) (c : String) (k : Kind) :
    ((enrolledAll ctx.defaults fs ix).writeAll as).ofKind c k =
      (enrolledAll ctx.defaults fs (ix.writeAll as)).ofKind c k := by
  rw [ofKind_enrolledAll, ← Index.writeAll_append,
    Index.ofKind_writeAll_congr (ofKind_enrolledAll ctx.defaults fs ix c k),
    ← Index.writeAll_append]
  refine Index.ofKind_writeAll_comm ix fun a ha b hb htouch htouch' => ?_
  obtain ⟨⟨f, hf, hc⟩, rfl⟩ := touches_of_mem_accessWrites ha htouch
  rcases touches_of_mem_writesAll has hb htouch' with ⟨e, he, hc'⟩ | hk
  · exact h e he f hf (hc'.trans hc.symm)
  · cases hk

/-- What all the entities write is what the first write and then the second. -/
theorem writesAll_enrolledAll_append_iff (h : Apart ctx.defaults es fs) {as : List Annotation} :
    writesAll ctx (es ++ fs) (enrolledAll ctx.defaults (es ++ fs) ix) = .ok as ↔
      ∃ bs cs, writesAll ctx es (enrolledAll ctx.defaults es ix) = .ok bs ∧
        writesAll ctx fs (enrolledAll ctx.defaults fs
          ((enrolledAll ctx.defaults es ix).writeAll bs)) = .ok cs ∧ as = bs ++ cs := by
  have hsecond : ∀ bs, writesAll ctx es (enrolledAll ctx.defaults es ix) = .ok bs →
      writesAll ctx fs
        ((enrolledAll ctx.defaults fs (enrolledAll ctx.defaults es ix)).writeAll bs) =
      writesAll ctx fs
        (enrolledAll ctx.defaults fs ((enrolledAll ctx.defaults es ix).writeAll bs)) :=
    fun bs hbs => writesAll_congr fun f _ k => ofKind_enrolledAll_writeAll h hbs _ k
  rw [enrolledAll_append, writesAll_append_eq_ok_iff, writesAll_enrolledAll h]
  constructor
  · rintro ⟨bs, cs, hbs, hcs, rfl⟩
    exact ⟨bs, cs, hbs, (hsecond bs hbs).symm.trans hcs, rfl⟩
  · rintro ⟨bs, cs, hbs, hcs, rfl⟩
    exact ⟨bs, cs, hbs, (hsecond bs hbs).trans hcs, rfl⟩

theorem agrees_append (h : Apart ctx.defaults es fs) {bs : List Annotation}
    (hbs : writesAll ctx es (enrolledAll ctx.defaults es ix) = .ok bs) (cs : List Annotation) :
    ((enrolledAll ctx.defaults (es ++ fs) ix).writeAll (bs ++ cs)).Agrees
      ((enrolledAll ctx.defaults fs
        ((enrolledAll ctx.defaults es ix).writeAll bs)).writeAll cs) where
  lists c k := by
    rw [enrolledAll_append, Index.writeAll_append]
    exact Index.ofKind_writeAll_congr (ofKind_enrolledAll_writeAll h hbs c k) cs
  classes c := by
    simp only [Index.mem_keys_writeAll_iff, mem_keys_enrolledAll_iff, List.mem_append,
      or_and_right, exists_or, or_assoc, or_left_comm]
  complete c := by
    simp only [Index.isComplete_writeAll, isComplete_enrolledAll, List.any_append, Bool.or_assoc]

/-- Staging all the entities is staging the first and then the second. -/
theorem stage_append {s : Session} (h : Apart d es fs) {n : Nat} {ix : Index}
    (hstage : s.stage d (es ++ fs) = .ok (n, ix)) : ∃ m k ix₁ ix₂,
      s.stage d es = .ok (m, ix₁) ∧ { s with index := ix₁ }.stage d fs = .ok (k, ix₂) ∧
        n = m + k ∧ ix.Agrees ix₂ := by
  have h : Apart (s.context d).defaults es fs := h
  obtain ⟨hnames, as, has, rfl, rfl⟩ := stage_eq_ok_iff.1 hstage
  rw [List.forall_mem_append] at hnames
  obtain ⟨bs, cs, hbs, hcs, rfl⟩ := (writesAll_enrolledAll_append_iff h).1 has
  exact ⟨bs.length, cs.length, _, _, stage_eq_ok_iff.2 ⟨hnames.1, bs, hbs, rfl, rfl⟩,
    stage_eq_ok_iff.2 ⟨hnames.2, cs, hcs, rfl, rfl⟩, List.length_append,
    agrees_append h hbs cs⟩

theorem exists_stage_append {s : Session} (h : Apart d es fs) {m k : Nat} {ix₁ ix₂ : Index}
    (hfirst : s.stage d es = .ok (m, ix₁))
    (hsecond : { s with index := ix₁ }.stage d fs = .ok (k, ix₂)) :
    ∃ n ix, s.stage d (es ++ fs) = .ok (n, ix) := by
  have h : Apart (s.context d).defaults es fs := h
  obtain ⟨hnames, bs, hbs, -, rfl⟩ := stage_eq_ok_iff.1 hfirst
  obtain ⟨hnames', cs, hcs, -, -⟩ := stage_eq_ok_iff.1 hsecond
  exact ⟨_, _, stage_eq_ok_iff.2 ⟨List.forall_mem_append.2 ⟨hnames, hnames'⟩, bs ++ cs,
    (writesAll_enrolledAll_append_iff h).2 ⟨bs, cs, hbs, hcs, rfl⟩, rfl, rfl⟩⟩

/-! ## Documents -/

variable {s : Session} {first second : Document}

theorem defaultsFor_eq {s' : Session} (hsettings : s'.settings = s.settings)
    (hdefaults : second.defaults = first.defaults) :
    s'.defaultsFor second = s.defaultsFor first := by
  unfold defaultsFor
  rw [hsettings, hdefaults]

/-- What a joint document does is done by the first and then the second. -/
theorem step_document_append (hdefaults : second.defaults = first.defaults)
    (hapart : Apart (s.defaultsFor first) first.entities second.entities) {a : Answer}
    {s' : Session} (h : s.step (.document (first.append second)) = (.ok a, s')) :
    ∃ r₁ r₂ s₁ s₂, s.step (.document first) = (.ok (.report r₁), s₁) ∧
      s₁.step (.document second) = (.ok (.report r₂), s₂) ∧
      a = .report ⟨r₁.entities + r₂.entities, r₁.annotations + r₂.annotations,
        r₁.globals + r₂.globals⟩ ∧
      s'.index.Agrees s₂.index ∧ s'.globals = s₂.globals := by
  obtain ⟨as, n, ix, has, hstage, rfl, rfl⟩ := step_document_eq_ok_iff.1 h
  obtain ⟨⟨bs, hbs⟩, cs, hcs⟩ := GlobalDeclarations.exists_build_append_iff.1 ⟨as, has⟩
  obtain ⟨hlength, hregister⟩ := GlobalDeclarations.registerBuilt_of_build_append has hbs hcs
  obtain ⟨m, k, ix₁, ix₂, hfirst, hsecond, rfl, hagrees⟩ := stage_append hapart hstage
  let s₁ : Session := { s with index := ix₁, globals := s.globals.registerBuilt bs }
  have hsame : s₁.defaultsFor second = s.defaultsFor first := defaultsFor_eq rfl hdefaults
  have hcs : second.globals.build s₁.classPath (s₁.defaultsFor second) = .ok cs := by
    rw [hsame]
    exact hcs
  have hsecond : s₁.stage (s₁.defaultsFor second) second.entities = .ok (k, ix₂) := by
    rw [hsame]
    exact hsecond
  refine ⟨_, _, s₁, _, step_document_eq_ok_iff.2 ⟨bs, m, ix₁, hbs, hfirst, rfl, rfl⟩,
    step_document_eq_ok_iff.2 ⟨cs, k, ix₂, hcs, hsecond, rfl, rfl⟩, ?_, hagrees, hregister _⟩
  have hentities : (first.append second).entities.length =
      first.entities.length + second.entities.length := List.length_append
  rw [hlength, hentities]

theorem exists_step_document_append (hdefaults : second.defaults = first.defaults)
    (hapart : Apart (s.defaultsFor first) first.entities second.entities) {a₁ a₂ : Answer}
    {s₁ s₂ : Session} (h₁ : s.step (.document first) = (.ok a₁, s₁))
    (h₂ : s₁.step (.document second) = (.ok a₂, s₂)) :
    ∃ a s', s.step (.document (first.append second)) = (.ok a, s') := by
  obtain ⟨bs, m, ix₁, hbs, hfirst, -, rfl⟩ := step_document_eq_ok_iff.1 h₁
  obtain ⟨cs, k, ix₂, hcs, hsecond, -, -⟩ := step_document_eq_ok_iff.1 h₂
  have hsame : { s with index := ix₁, globals := s.globals.registerBuilt bs }.defaultsFor second =
      s.defaultsFor first := defaultsFor_eq rfl hdefaults
  rw [hsame] at hcs hsecond
  obtain ⟨as, has⟩ := GlobalDeclarations.exists_build_append_iff.2 ⟨⟨bs, hbs⟩, cs, hcs⟩
  obtain ⟨n, ix, hstage⟩ := exists_stage_append hapart hfirst hsecond
  exact ⟨_, _, step_document_eq_ok_iff.2 ⟨as, n, ix, has, hstage, rfl, rfl⟩⟩

/-- **Documents one after another.** A document put together from two with the same defaults, no
entity of one having the class of an entity of the other, succeeds just when the first succeeds and
then the second does. The lists of the index, its classes and flags, and the registry are then the
same, and the numbers in the report are the sums of those in the two. -/
theorem document_append (hdefaults : second.defaults = first.defaults)
    (hapart : Apart (s.defaultsFor first) first.entities second.entities) :
    let whole := s.step (.document (first.append second))
    let one := s.step (.document first)
    let two := one.2.step (.document second)
    (whole.1.isOk ↔ one.1.isOk ∧ two.1.isOk) ∧
      ∀ r, whole.1 = .ok (.report r) → ∃ r₁ r₂,
        one.1 = .ok (.report r₁) ∧ two.1 = .ok (.report r₂) ∧
        r = ⟨r₁.entities + r₂.entities, r₁.annotations + r₂.annotations,
          r₁.globals + r₂.globals⟩ ∧
        whole.2.index.Agrees two.2.index ∧ whole.2.globals = two.2.globals := by
  intro whole one two
  have hwhole : ∀ a, whole.1 = .ok a → ∃ r₁ r₂,
      one.1 = .ok (.report r₁) ∧ two.1 = .ok (.report r₂) ∧
      a = .report ⟨r₁.entities + r₂.entities, r₁.annotations + r₂.annotations,
        r₁.globals + r₂.globals⟩ ∧
      whole.2.index.Agrees two.2.index ∧ whole.2.globals = two.2.globals := by
    intro a ha
    obtain ⟨r₁, r₂, s₁, s₂, hone, htwo, hr, hindex, hglobals⟩ :=
      step_document_append hdefaults hapart (Prod.ext ha rfl : whole = (.ok a, whole.2))
    have hone : one = (.ok (.report r₁), s₁) := hone
    have htwo : two = (.ok (.report r₂), s₂) := by
      simp only [two, hone]
      exact htwo
    rw [hone, htwo]
    exact ⟨r₁, r₂, rfl, rfl, hr, hindex, hglobals⟩
  refine ⟨⟨fun h => ?_, fun ⟨h₁, h₂⟩ => ?_⟩, fun r hr => ?_⟩
  · obtain ⟨a, ha⟩ := Outcome.isOk_iff.1 h
    obtain ⟨r₁, r₂, hone, htwo, -⟩ := hwhole a ha
    exact ⟨Outcome.isOk_iff.2 ⟨_, hone⟩, Outcome.isOk_iff.2 ⟨_, htwo⟩⟩
  · obtain ⟨a₁, ha₁⟩ := Outcome.isOk_iff.1 h₁
    obtain ⟨a₂, ha₂⟩ := Outcome.isOk_iff.1 h₂
    obtain ⟨a, s', h⟩ := exists_step_document_append hdefaults hapart
      (Prod.ext ha₁ rfl : one = (.ok a₁, one.2)) (Prod.ext ha₂ rfl : two = (.ok a₂, two.2))
    exact Outcome.isOk_iff.2 ⟨a, congrArg Prod.fst h⟩
  · obtain ⟨r₁, r₂, hone, htwo, hsum, hindex, hglobals⟩ := hwhole _ hr
    exact ⟨r₁, r₂, hone, htwo, Answer.report.inj hsum, hindex, hglobals⟩

/-- A listener of the first document is of the class that the second document maps. -/
theorem append_with_listener :
    let listener : Listener := { className := "Audit", callbacks := { postLoad := some "loaded" } }
    let order : Entity := { className := "Order", entityListeners := [listener] }
    let first : Document := { entities := [order] }
    let second : Document := { entities := [{ className := "Audit", access := some .property }] }
    let whole := (start {}).step (.document (first.append second))
    let two := ((start {}).step (.document first)).2.step (.document second)
    whole.1 = .ok (.report ⟨2, 2, 0⟩) ∧ two.1 = .ok (.report ⟨1, 0, 0⟩) ∧
      whole.2.index.Agrees two.2.index := by
  intro listener order first second whole two
  have hapart : Apart ((start {}).defaultsFor first) first.entities second.entities := by
    decide +kernel
  have hreport : whole.1 = .ok (.report ⟨2, 2, 0⟩) := by decide +kernel
  have hreport₂ : two.1 = .ok (.report ⟨1, 0, 0⟩) := by decide +kernel
  obtain ⟨-, -, -, -, -, hindex, -⟩ :=
    (@document_append (start {}) first second rfl hapart).2 _ hreport
  exact ⟨hreport, hreport₂, hindex⟩

end Session

end MappingMetadata
