import MappingMetadata.Proofs.Session.Enrolling

/-!
# Entities that are processed again

While entities are processed the access types of classes stay as they are (`access?_writesAll`).
So what the entities have to write is a fixed list of pieces for each (`Entity.piecesUnder`), and
to a site of overrides they are a fixed list of merges (`declaredLists`).

**Theorem (`retraces_writesAll`).** Processed against two indexes that hold the same overrides but
for the names to come, the same entities write the same places. The two indexes may drift apart in
between, where overrides of one entity are covered by those of a later one.
-/

namespace MappingMetadata

open Declaration Override

/-! ## Fixed pieces -/

/-- What an entity has to write when the access types of classes are as given. -/
def Declaration.Entity.piecesUnder (e : Entity) (ctx : Context) (access : String → Option Access) :
    List Piece :=
  e.pieces ctx (ctx.defaults.qualify e.className) (access (ctx.defaults.qualify e.className))

namespace Session

variable {ctx : Context} {access : String → Option Access} {f : Family} {site : Site}

/-- The lists that entities declare last for a site, entity by entity. -/
def declaredLists (ctx : Context) (access : String → Option Access) (f : Family) (site : Site)
    (es : List Entity) : List (List f.Declared) :=
  es.map fun e => Piece.lastDeclared f site (e.piecesUnder ctx access)

/-- The names that the entities take on a site. -/
def takenNames (ctx : Context) (access : String → Option Access) (f : Family) (site : Site)
    (es : List Entity) : List String :=
  takenAll ctx.dedupe (declaredLists ctx access f site es)

/-- Some entity declares overrides for the site. -/
def AnyDeclared (ctx : Context) (access : String → Option Access) (f : Family) (site : Site)
    (es : List Entity) : Prop :=
  ∃ e ∈ es, Piece.lastDeclared f site (e.piecesUnder ctx access) ≠ []

theorem writes_eq {ix : Index} (hix : ∀ c, ctx.access? ix c = access c) (e : Entity) :
    e.writes ctx (ctx.defaults.qualify e.className) ix =
      Piece.collect ctx ix (e.piecesUnder ctx access) := by
  rw [Entity.writes, hix]
  rfl

/-- The index after an entity has written gives the classes the same access types. -/
theorem access?_of_writes {ix : Index} (hix : ∀ c, ctx.access? ix c = access c) {e : Entity}
    {as : List Annotation}
    (h : e.writes ctx (ctx.defaults.qualify e.className) ix = .ok as) (c : String) :
    ctx.access? (ix.writeAll as) c = access c :=
  (Entity.access?_writes h c).trans (hix c)

theorem access?_writesAll {es : List Entity} {ix : Index} {as : List Annotation}
    (h : writesAll ctx es ix = .ok as) (c : String) :
    ctx.access? (ix.writeAll as) c = ctx.access? ix c := by
  induction es generalizing ix as with
  | nil =>
    cases h
    rfl
  | cons e es ih =>
    obtain ⟨bs, rest, hbs, hrest, rfl⟩ := writesAll_cons_eq_ok_iff.1 h
    rw [Index.writeAll_append, ih hrest]
    exact Entity.access?_writes hbs c

/-! ## Overrides along the entities -/

/-- To a site, processing entities is a list of merges. -/
theorem held_writesAll {es : List Entity} {ix : Index} {as : List Annotation}
    (hix : ∀ c, ctx.access? ix c = access c) (h : writesAll ctx es ix = .ok as)
    {held : List (Item f)} (hheld : Held ix f site held) :
    Held (ix.writeAll as) f site
      (mergeAll ctx.defaults ctx.dedupe (declaredLists ctx access f site es) held) := by
  induction es generalizing ix as held with
  | nil =>
    cases h
    exact hheld
  | cons e es ih =>
    obtain ⟨bs, rest, hbs, hrest, rfl⟩ := writesAll_cons_eq_ok_iff.1 h
    have hcollect := (writes_eq hix e).symm.trans hbs
    rw [Index.writeAll_append]
    exact ih (access?_of_writes hix hbs) hrest
      (Piece.held_writeAll (e.apart_pieces ctx _ _) hcollect hheld)

/-- Where entities declare overrides and are processed, the overrides in the index could be carried
over; and something has been written there. -/
theorem exists_carried_of_anyDeclared {es : List Entity} {ix : Index} {as : List Annotation}
    (hix : ∀ c, ctx.access? ix c = access c) (h : writesAll ctx es ix = .ok as)
    (hany : AnyDeclared ctx access f site es) :
    (∃ held : List (Item f), (indexed ix f site).mapM Item.carry = .ok held) ∧
      ∃ a ∈ as, Occupies f site a := by
  induction es generalizing ix as with
  | nil =>
    obtain ⟨e, he, -⟩ := hany
    cases he
  | cons e es ih =>
    obtain ⟨bs, rest, hbs, hrest, rfl⟩ := writesAll_cons_eq_ok_iff.1 h
    have hcollect := (writes_eq hix e).symm.trans hbs
    by_cases hne : Piece.lastDeclared f site (e.piecesUnder ctx access) = []
    · -- Nothing has happened to the site yet.
      obtain ⟨e', he', hne'⟩ := hany
      rcases List.mem_cons.1 he' with rfl | he'
      · exact absurd hne hne'
      · obtain ⟨⟨held, hheld⟩, a, ha, ho⟩ :=
          ih (access?_of_writes hix hbs) hrest ⟨e', he', hne'⟩
        have hsame := indexed_writeAll_of_not_occupies ix
          (Piece.not_occupies_of_lastDeclared (e.apart_pieces ctx _ _) hcollect hne)
        exact ⟨⟨held, hsame ▸ hheld⟩, a, List.mem_append_right _ ha, ho⟩
    · obtain ⟨hheld, a, ha, ho⟩ := Piece.exists_occupies hcollect hne
      exact ⟨hheld, a, List.mem_append_left _ ha, ho⟩

theorem takenNames_cons (e : Entity) (es : List Entity) :
    takenNames ctx access f site (e :: es) =
      taken f ctx.dedupe (Piece.lastDeclared f site (e.piecesUnder ctx access)) ++
        takenNames ctx access f site es := List.flatMap_cons

theorem takenNames_of_not_anyDeclared {es : List Entity}
    (h : ¬ AnyDeclared ctx access f site es) : takenNames ctx access f site es = [] := by
  refine List.flatMap_eq_nil_iff.2 fun declared hdecl => ?_
  obtain ⟨e, he, rfl⟩ := List.mem_map.1 hdecl
  have hnil : Piece.lastDeclared f site (e.piecesUnder ctx access) = [] :=
    Classical.byContradiction fun hne => h ⟨e, he, hne⟩
  rw [hnil, taken_nil]

/-- **Entities that are processed again write the same places.** -/
theorem retraces_writesAll {es : List Entity} {ix jx : Index} {as : List Annotation}
    (hix : ∀ c, ctx.access? ix c = access c) (hjx : ∀ c, ctx.access? jx c = access c)
    (h : writesAll ctx es ix = .ok as)
    (halike : ∀ f site, AnyDeclared ctx access f site es →
      AlikeBut (takenNames ctx access f site es) ix jx f site) :
    ∃ bs, writesAll ctx es jx = .ok bs ∧ Index.Retraces as bs := by
  induction es generalizing ix jx as with
  | nil =>
    cases h
    exact ⟨[], rfl, .nil⟩
  | cons e es ih =>
    obtain ⟨cs, rest, hcs, hrest, rfl⟩ := writesAll_cons_eq_ok_iff.1 h
    have hcollect := (writes_eq hix e).symm.trans hcs
    obtain ⟨ds, hds, hretrace⟩ := Piece.retraces_collect hcollect fun f site hne => by
      obtain ⟨x, y, -, hy, -⟩ := halike f site ⟨e, List.mem_cons_self, hne⟩
      exact ⟨y, hy⟩
    have hwrites : e.writes ctx (ctx.defaults.qualify e.className) jx = .ok ds :=
      (writes_eq hjx e).trans hds
    have hapart := e.apart_pieces ctx (ctx.defaults.qualify e.className)
      (access (ctx.defaults.qualify e.className))
    -- The entity brings the two indexes closer, by the names that it takes.
    have hcloser : ∀ f site, AnyDeclared ctx access f site es →
        AlikeBut (takenNames ctx access f site es) (ix.writeAll cs) (jx.writeAll ds) f site := by
      intro f site ⟨e', he', hne'⟩
      obtain ⟨x, y, hx, hy, hfresh⟩ := halike f site ⟨e', List.mem_cons_of_mem _ he', hne'⟩
      rw [takenNames_cons] at hfresh
      exact ⟨_, _, Piece.held_writeAll hapart hcollect hx, Piece.held_writeAll hapart hds hy,
        fresh_mergeInto_congr ctx.defaults ctx.dedupe hfresh⟩
    obtain ⟨rest', hrest', htail⟩ :=
      ih (access?_of_writes hix hcs) (access?_of_writes hjx hwrites) hrest hcloser
    refine ⟨ds ++ rest', writesAll_cons_eq_ok_iff.2 ⟨ds, rest', hwrites, hrest', rfl⟩,
      hretrace rest rest' htail fun f site hne => ?_⟩
    by_cases hany : AnyDeclared ctx access f site es
    · exact Or.inl (exists_carried_of_anyDeclared (access?_of_writes hix hcs) hrest hany).2
    · refine Or.inr fun x y hx hy => ?_
      obtain ⟨x', y', hx', hy', hfresh⟩ := halike f site ⟨e, List.mem_cons_self, hne⟩
      have hxx : x = x' := Except.ok.inj (hx.symm.trans hx'.carried)
      have hyy : y = y' := Except.ok.inj (hy.carried.symm.trans hy'.carried)
      rw [takenNames_cons, takenNames_of_not_anyDeclared hany, List.append_nil] at hfresh
      rw [hxx, hyy]
      exact hfresh

end Session

end MappingMetadata
