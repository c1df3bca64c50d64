import MappingMetadata.Proofs.Entity.Placement
import MappingMetadata.Proofs.Index.Frame
import MappingMetadata.Proofs.Session.Retracing
import MappingMetadata.Proofs.Session.Steps

/-!
# Access types in a document

All entities of a document are enrolled before the first is processed, and processing leaves the
access types as they are. So every entity of a class finds the same access type, whichever entity
declares it and wherever that stands in the document.

**Theorem (`document_access`).** The access type of a class is the one that the last of its entities
declares, else the one in the index, else the default. Each entity is processed once all are
enrolled and those before it are processed; it puts its attributes where its own access type says,
else where that of its class says, and the places are still occupied after the document. The class
then has this access type in the index.
-/

namespace MappingMetadata.Session

open Declaration

/-! ## Access types -/

/-- The access types that entities declare for a class, in the order of the entities. -/
def accessesOf (d : Defaults) (c : String) (es : List Entity) : List Access :=
  es.filterMap fun e => if d.qualify e.className = c then e.access else none

/-- The access type of a class while a document is applied: the last one that is declared, else the
one in the index, else the default. -/
def accessIn (s : Session) (doc : Document) (c : String) : Option Access :=
  let d := s.defaultsFor doc
  (accessesOf d c doc.entities).getLast?.or ((s.index.access? c).or d.access)

theorem declaredAccess_eq (d : Defaults) (c : String) (es : List Entity) :
    declaredAccess d c es = (accessesOf d c es).getLast? := by
  unfold accessesOf
  induction es with
  | nil => rfl
  | cons e es ih =>
    rw [declaredAccess, ih, List.filterMap_cons]
    generalize (if d.qualify e.className = c then e.access else none) = own
    cases own with
    | none => exact Option.or_none
    | some access =>
      dsimp only
      rw [List.getLast?_cons]
      cases List.getLast? _ <;> rfl

/-- Once all entities are enrolled, every class has the access type that it has in the document. -/
theorem access?_enrolledAll_document (s : Session) (doc : Document) (c : String) :
    (s.context (s.defaultsFor doc)).access?
      (enrolledAll (s.defaultsFor doc) doc.entities s.index) c = s.accessIn doc c := by
  rw [Context.access?, access?_enrolledAll, declaredAccess_eq, Option.or_assoc]
  rfl

/-- What is stated of access types once entities are processed. -/
theorem access?_writeAll_writesAll {ctx : Context} {es : List Entity} {ix : Index}
    {as : List Annotation} (h : writesAll ctx es ix = .ok as) (c : String) :
    (ix.writeAll as).access? c =
      if ∃ e ∈ es, ctx.defaults.qualify e.className = c ∧ e.access = none then ctx.access? ix c
      else ix.access? c := by
  induction es generalizing ix as with
  | nil =>
    cases h
    simp
  | cons e es ih =>
    obtain ⟨bs, rest, hbs, hrest, rfl⟩ := writesAll_cons_eq_ok_iff.1 h
    rw [Index.writeAll_append, ih hrest, Entity.access?_writes hbs,
      Entity.access?_writeAll_writes hbs]
    by_cases he : ctx.defaults.qualify e.className = c ∧ e.access = none
    · simp [he]
    · simp [he]

/-- A declared access type is stated, and one that nobody declares is taken over. -/
theorem access?_after_document {s : Session} {doc : Document} {as : List Annotation}
    (h : writesAll (s.context (s.defaultsFor doc)) doc.entities
      (enrolledAll (s.defaultsFor doc) doc.entities s.index) = .ok as) {e : Entity}
    (he : e ∈ doc.entities) :
    let c := (s.defaultsFor doc).qualify e.className
    ((enrolledAll (s.defaultsFor doc) doc.entities s.index).writeAll as).access? c =
      s.accessIn doc c := by
  intro c
  rw [access?_writeAll_writesAll h]
  split
  · exact s.access?_enrolledAll_document doc c
  · rename_i hall
    -- The entity itself declares an access type, so there is no need of a default.
    obtain ⟨access, haccess⟩ : ∃ access, e.access = some access :=
      Option.ne_none_iff_exists'.1 fun hnone => hall ⟨e, he, rfl, hnone⟩
    have hmem : access ∈ accessesOf (s.defaultsFor doc) c doc.entities :=
      List.mem_filterMap.2 ⟨e, he, (if_pos rfl).trans haccess⟩
    obtain ⟨last, hlast⟩ : ∃ last,
        (accessesOf (s.defaultsFor doc) c doc.entities).getLast? = some last :=
      Option.ne_none_iff_exists'.1 fun hnone =>
        List.ne_nil_of_mem hmem (List.getLast?_eq_none_iff.1 hnone)
    have hin := s.access?_enrolledAll_document doc c
    rw [Context.access?] at hin
    rw [access?_enrolledAll, declaredAccess_eq, hlast] at hin ⊢
    exact hin

/-! ## Where attributes go -/

/-- **Access types in a document.** When a document is applied, all its entities are enrolled and
then processed in their order. Each of them puts its attributes where its own access type says, else
where that of its class in the document says; something stands in each of these places afterwards;
and the class has its access type in the index. -/
theorem document_access {s s' : Session} {doc : Document} {r : Report}
    (h : s.step (.document doc) = (.ok (.report r), s')) {before after : List Entity} {e : Entity}
    (he : doc.entities = before ++ e :: after) :
    let d := s.defaultsFor doc
    let ctx := s.context d
    let c := d.qualify e.className
    s'.index.access? c = s.accessIn doc c ∧
      ∃ (ix jx : Index) (m n : Nat) (p : Entity.Parts),
        (enrolAll d doc.entities).run s.index = .ok (doc.entities.map (naming d)) ix ∧
        (processAll ctx (before.map (naming d))).run ix = .ok m jx ∧
        (e.process ctx (some c)).run jx = .ok p.all.length (jx.writeAll p.all) ∧
        (processAll ctx (after.map (naming d))).run (jx.writeAll p.all) = .ok n s'.index ∧
        p.Placed e ctx c (e.accessUnder (s.accessIn doc c)) jx ∧
        ∀ a ∈ p.all, s'.index.Occupied a := by
  intro d ctx c
  obtain ⟨built, n, ix, -, hstage, -, rfl⟩ := step_document_eq_ok_iff.1 h
  obtain ⟨hnames, as, has, -, rfl⟩ := stage_eq_ok_iff.1 hstage
  have hmem : e ∈ doc.entities := by
    rw [he]
    exact List.mem_append_right _ List.mem_cons_self
  refine ⟨access?_after_document has hmem, ?_⟩
  -- What is written falls into what comes before the entity, its own, and what comes after it.
  have hsplit := has
  rw [he] at hsplit
  obtain ⟨as₁, as₂, has₁, has₂, rfl⟩ := writesAll_append_eq_ok_iff.1 hsplit
  obtain ⟨own, as₃, hown, has₃, rfl⟩ := writesAll_cons_eq_ok_iff.1 has₂
  obtain ⟨p, rfl, hplaced⟩ := Entity.exists_placed hown
  have haccess : ctx.access? ((enrolledAll d (before ++ e :: after) s.index).writeAll as₁) c =
      s.accessIn doc c := by
    rw [access?_writesAll has₁, ← he]
    exact s.access?_enrolledAll_document doc c
  rw [he]
  refine ⟨enrolledAll d (before ++ e :: after) s.index, _, as₁.length, as₃.length, p,
    (run_enrolAll _ _ _).2 ⟨he ▸ hnames, rfl, rfl⟩, run_processAll.2 ⟨as₁, has₁, rfl, rfl⟩,
    Entity.run_process_eq_ok_iff.2 ⟨p.all, hown, rfl, rfl⟩,
    run_processAll.2 ⟨as₃, has₃, rfl, ?_⟩, ?_, ?_⟩
  · rw [Index.writeAll_append, Index.writeAll_append]
  · rw [← haccess]
    exact hplaced
  · intro a ha
    obtain ⟨site, hsite, -⟩ := hplaced.exists_site ha
    exact Index.occupied_writeAll _
      (List.mem_append_right _ (List.mem_append_left _ ha)) hsite

/-- An entity without an access type, in front of one of its class that declares property access. -/
theorem access_of_later_entity :
    let note : BasicAttribute := { name := "note", lob := true }
    let plain : Entity := { className := "Order", basicAttributes := [note] }
    let declaring : Entity := { className := "Order", access := some .property }
    let doc : Document := { entities := [plain, declaring] }
    ∃ s', (start {}).step (.document doc) = (.ok (.report ⟨2, 2, 0⟩), s') ∧
      s'.index.access? "Order" = some .property ∧
      ∃ jx p, Entity.Parts.Placed p plain ((start {}).context {}) "Order" .property jx ∧
        p.basics = [[.marker .lob (some (.onMethod "Order" "getNote"))]] ∧
        ∀ a ∈ p.all, s'.index.Occupied a := by
  intro note plain declaring doc
  have hreport : ((start {}).step (.document doc)).1 = .ok (.report ⟨2, 2, 0⟩) := by decide +kernel
  cases hstep : (start {}).step (.document doc) with
  | mk answer s' =>
    rw [hstep] at hreport
    dsimp only at hreport
    subst hreport
    have hsplit : doc.entities = [] ++ plain :: [declaring] := rfl
    obtain ⟨haccess, -, jx, -, -, p, -, -, -, -, hplaced, hoccupied⟩ :=
      document_access hstep hsplit
    have hin : (start {}).accessIn doc "Order" = some .property := by decide +kernel
    have hproperty : p.Placed plain ((start {}).context {}) "Order" .property jx := by
      have hunder : plain.accessUnder ((start {}).accessIn doc "Order") = .property := by
        rw [hin]
        rfl
      exact hunder ▸ hplaced
    refine ⟨s', rfl, haccess.trans hin, jx, p, hproperty, ?_, hoccupied⟩
    have hbasics := hproperty.basics
    generalize p.basics = basics at hbasics
    cases hbasics with
    | cons hhead htail =>
      cases htail
      have hsite : Access.site .property "Order" "note" = .onMethod "Order" "getNote" := by
        decide +kernel
      rw [hhead.1, ← hsite]
      rfl

end MappingMetadata.Session
