import MappingMetadata.Proofs.Entity.Placement
import MappingMetadata.Proofs.Override.Names

/-!
# The overrides that one entity declares

An entity may declare several lists of overrides for one site: two of its associations may have
the same name, or names with the same getter. Each list is merged with what the index holds before
the entity has written anything, and each write takes the place of the one before it. So the lists
are not merged with one another.

**Theorem (`mem_names_process`).** Afterwards the names on a site are those of the last list that
is not empty and those that were read from the index. A name that only an earlier list declares is
gone (`earlier_list_is_lost`); where at most one list is not empty, every declared name is there.
-/

namespace MappingMetadata

open Override

/-- The last list that is not empty; the empty list if there is none. -/
def lastNonempty {α : Type} (ls : List (List α)) : List α :=
  ((ls.filter fun l => !l.isEmpty).getLast?).getD []

theorem lastNonempty_eq_nil_iff {α : Type} {ls : List (List α)} :
    lastNonempty ls = [] ↔ ∀ l ∈ ls, l = [] := by
  have hfilter : (∀ l ∈ ls, l = []) ↔ (ls.filter fun l => !l.isEmpty) = [] := by
    rw [List.filter_eq_nil_iff]
    simp
  rw [hfilter]
  unfold lastNonempty
  constructor
  · intro h
    cases hlast : (ls.filter fun l => !l.isEmpty).getLast? with
    | none => exact List.getLast?_eq_none_iff.1 hlast
    | some l =>
      rw [hlast] at h
      have hl := List.of_mem_filter (List.mem_of_getLast? hlast)
      rw [show l = [] from h] at hl
      cases hl
  · intro h
    rw [h]
    rfl

theorem lastNonempty_eq_of_length_le_one {α : Type} {ls : List (List α)}
    (h : (ls.filter fun l => !l.isEmpty).length ≤ 1) {l : List α} (hl : l ∈ ls) (hne : l ≠ []) :
    lastNonempty ls = l := by
  have hmem : l ∈ ls.filter fun l => !l.isEmpty := List.mem_filter.2 ⟨hl, by simpa using hne⟩
  unfold lastNonempty
  generalize (ls.filter fun l => !l.isEmpty) = kept at h hmem
  match kept with
  | [] => cases hmem
  | [l'] => rw [List.mem_singleton.1 hmem]; rfl
  | l' :: l'' :: rest => simp at h

theorem lastNonempty_cons {α : Type} (l : List α) (ls : List (List α)) :
    lastNonempty (l :: ls) = if (lastNonempty ls).isEmpty then l else lastNonempty ls := by
  by_cases hls : lastNonempty ls = []
  · have hnil : (ls.filter fun l => !l.isEmpty) = [] := by
      rw [List.filter_eq_nil_iff]
      simpa using lastNonempty_eq_nil_iff.1 hls
    rw [if_pos (by rw [hls]; rfl), lastNonempty, List.filter_cons, hnil]
    cases l <;> rfl
  · rw [if_neg (by simpa using hls)]
    unfold lastNonempty at hls ⊢
    rw [List.filter_cons]
    split
    · cases hlast : (ls.filter fun l => !l.isEmpty).getLast? with
      | none =>
        rw [hlast] at hls
        exact absurd rfl hls
      | some l' => rw [List.getLast?_cons, hlast]; rfl
    · rfl

namespace Piece

variable {f : Family} {ctx : Context}

theorem lastDeclared_eq (site : Site) (ps : List Piece) :
    lastDeclared f site ps = lastNonempty (ps.map (declaredFor f site)) := by
  induction ps with
  | nil => rfl
  | cons p ps ih => rw [lastDeclared, List.map_cons, lastNonempty_cons, ih]

/-- To the site, writing what is collected leaves the merge of the list declared last, made against
the index from which it was collected. -/
theorem standing_writeAll {site : Site} {ix : Index} {ps : List Piece} (hps : ∀ p ∈ ps, p.Apart)
    {as : List Annotation} (h : collect ctx ix ps = .ok as)
    (hne : lastDeclared f site ps ≠ []) (jx : Index) :
    (∀ o ∈ lastDeclared f site ps, ¬ Text.isBlank (f.name o)) ∧ ∃ held a,
      (indexed ix f site).mapM Item.carry = .ok held ∧
      Annotation.ofItems f.wrapper (fun i site => i.annotation ctx.defaults site) (some site)
        (mergedItems ctx.dedupe (lastDeclared f site ps) held) = some a ∧
      standing (jx.writeAll as) f site = parts f a := by
  induction ps generalizing as jx with
  | nil => exact absurd rfl hne
  | cons p ps ih =>
    rw [List.forall_mem_cons] at hps
    obtain ⟨bs, rest, hbs, hrest, rfl⟩ := collect_cons_eq_ok_iff.1 h
    rw [Index.writeAll_append]
    by_cases hlater : lastDeclared f site ps = []
    · -- What comes later leaves the site alone.
      rw [lastDeclared_cons_of_nil hlater] at hne ⊢
      rw [eq_overrides_of_declaredFor hne] at hbs
      obtain ⟨hnames, held, a, hheld, ha, rfl⟩ := (overrides_eq_ok_iff hne).1 hbs
      refine ⟨hnames, held, a, hheld, ha, ?_⟩
      rw [standing_writeAll_of_not_occupies _
        (not_occupies_of_lastDeclared hps.2 hrest hlater), Index.writeAll_cons, Index.writeAll_nil]
      exact standing_write_of_occupies jx (occupies_of_ofItems ha)
    · rw [lastDeclared_cons_of_ne_nil hlater]
      exact ih hps.2 hrest hlater (jx.writeAll bs)

end Piece

namespace Declaration

/-- The overrides of a family that an association declares. -/
def AssociationAttribute.overrides (a : AssociationAttribute) : (f : Family) → List f.Declared
  | .attributes => a.attributeOverrides
  | .associations => a.associationOverrides

theorem AssociationAttribute.filter_declaredFor_pieces (a : AssociationAttribute) (ctx : Context)
    (f : Family) (s site : Site) :
    (((a.pieces ctx s).map (Piece.declaredFor f site)).filter fun l => !l.isEmpty) =
      (if s = site then [a.overrides f] else []).filter fun l => !l.isEmpty := by
  unfold pieces
  by_cases hs : s = site <;>
    cases f <;> simp [Piece.declaredFor, Piece.plain, overrides, hs, List.filter_cons]

namespace Entity

/-- The overrides of a family that an entity declares for its class. -/
def overrides (e : Entity) : (f : Family) → List f.Declared
  | .attributes => e.attributeOverrides
  | .associations => e.associationOverrides

/-- The lists of overrides that an entity declares for a site: that for the class, and those of the
associations that are annotated there. -/
def overridesOn (e : Entity) (f : Family) (className : String) (access : Access) (site : Site) :
    List (List f.Declared) :=
  (if Site.onClass className = site then [e.overrides f] else []) ++
    (e.associations.filter fun a => access.site className a.name = site).map fun a => a.overrides f

theorem lastDeclared_pieces (e : Entity) (ctx : Context) (f : Family) (className : String)
    (ofClass : Option Access) (site : Site) :
    Piece.lastDeclared f site (e.pieces ctx className ofClass) =
      lastNonempty (e.overridesOn f className (e.accessUnder ofClass) site) := by
  have hassociations : ∀ as : List AssociationAttribute,
      (((as.flatMap fun a => a.pieces ctx ((e.accessUnder ofClass).site className a.name)).map
        (Piece.declaredFor f site)).filter fun l => !l.isEmpty) =
      ((as.filter fun a => (e.accessUnder ofClass).site className a.name = site).map
        fun a => a.overrides f).filter fun l => !l.isEmpty := by
    intro as
    induction as with
    | nil => rfl
    | cons a as ih =>
      rw [List.flatMap_cons, List.map_append, List.filter_append, a.filter_declaredFor_pieces, ih,
        List.filter_cons]
      by_cases hs : (e.accessUnder ofClass).site className a.name = site
      · rw [if_pos hs, if_pos (decide_eq_true hs), List.map_cons, ← List.filter_append]
        rfl
      · rw [if_neg hs, if_neg (by simpa using hs)]
        rfl
  rw [Piece.lastDeclared_eq, pieces_eq]
  unfold lastNonempty
  congr 2
  unfold ownPieces overridesOn
  rw [List.filter_append, ← hassociations]
  by_cases hs : Site.onClass className = site
  · cases f <;> simp [Piece.declaredFor, Piece.plain, overrides, hs, List.filter_cons] <;>
      split <;> rfl
  · cases f <;> simp [Piece.declaredFor, Piece.plain, hs]

/-- **The override names that processing an entity leaves on a site.** Where the entity declares
overrides, they are those of its last list that is not empty and those that were read from the
index before; elsewhere nothing changes. With one such list at most, every declared name is
there. -/
theorem mem_names_process {e : Entity} {ctx : Context} {className : String} {ix ix' : Index}
    {n : Nat} (h : (e.process ctx (some className)).run ix = .ok n ix') (f : Family) (site : Site) :
    let lists := e.overridesOn f className (e.accessUnder (ctx.access? ix className)) site
    ((∀ l ∈ lists, l = []) → standing ix' f site = standing ix f site) ∧
      ((∃ l ∈ lists, l ≠ []) → ∀ name, name ∈ namesIn (standing ix' f site) ↔
        name ∈ (lastNonempty lists).map f.name ∨ name ∈ namesIn (indexed ix f site)) ∧
      ((lists.filter fun l => !l.isEmpty).length ≤ 1 →
        ∀ l ∈ lists, ∀ o ∈ l, f.name o ∈ namesIn (standing ix' f site)) := by
  intro lists
  obtain ⟨as, hwrites, -, rfl⟩ := run_process_eq_ok_iff.1 h
  have hapart := e.apart_pieces ctx className (ctx.access? ix className)
  have hlast : Piece.lastDeclared f site (e.pieces ctx className (ctx.access? ix className)) =
      lastNonempty lists := e.lastDeclared_pieces ctx f className _ site
  have hdeclared : (∃ l ∈ lists, l ≠ []) → ∀ name,
      name ∈ namesIn (standing (ix.writeAll as) f site) ↔
        name ∈ (lastNonempty lists).map f.name ∨ name ∈ namesIn (indexed ix f site) := by
    intro hsome name
    have hne : lastNonempty lists ≠ [] := by
      rw [Ne, lastNonempty_eq_nil_iff]
      push Not
      exact hsome
    rw [← hlast] at hne ⊢
    obtain ⟨hnames, held, a, hheld, ha, hstanding⟩ :=
      Piece.standing_writeAll hapart hwrites hne ix
    rw [hstanding]
    exact mem_namesIn_merged_iff hnames hheld ha name
  refine ⟨fun hnone => ?_, hdeclared, fun hone l hl o ho => ?_⟩
  · refine standing_writeAll_of_not_occupies ix
      (Piece.not_occupies_of_lastDeclared hapart hwrites ?_)
    rw [hlast, lastNonempty_eq_nil_iff]
    exact hnone
  · have hl' : l ≠ [] := List.ne_nil_of_mem ho
    rw [hdeclared ⟨l, hl, hl'⟩]
    refine Or.inl (List.mem_map_of_mem ?_)
    rwa [lastNonempty_eq_of_length_le_one hone hl hl']

/-- Overrides for the class and for two associations on different sites, over an indexed one. -/
theorem names_over_three_sites :
    let e : Entity := {
      className := "Order"
      attributeOverrides := [{ name := "total" }]
      associations := [{ name := "billing", attributeOverrides := [{ name := "street" }] },
        { name := "shipping", attributeOverrides := [{ name := "city" }] }] }
    let ctx : Context := { defaults := {}, classPath := .everything }
    let ix : Index := .ofList [AttributeOverride.annotation { name := "zip" }
      (some (.onField "Order" "shipping"))]
    ∃ n ix', (e.process ctx (some "Order")).run ix = .ok n ix' ∧
      ∀ name, name ∈ namesIn (standing ix' .attributes (.onField "Order" "shipping")) ↔
        name ∈ ["city"] ∨ name ∈ ["zip"] := by
  intro e ctx ix
  have hrun : (e.process ctx (some "Order")).run ix = .ok 3 _ := rfl
  refine ⟨3, _, hrun, ?_⟩
  have h := (mem_names_process hrun .attributes (.onField "Order" "shipping")).2.1
  exact h ⟨[{ name := "city" }], by decide, by decide⟩

/-- **An earlier list is lost.** Two associations of an entity have the same getter, and each
declares an override. Both are merged with the empty index, and the second takes the place of the
first. -/
theorem earlier_list_is_lost :
    let e : Entity := { className := "Order", access := some .property, associations := [
      { name := "address", attributeOverrides := [{ name := "street" }] },
      { name := "Address", attributeOverrides := [{ name := "city" }] }] }
    let ctx : Context := { defaults := {}, classPath := .everything }
    let site : Site := .onMethod "Order" "getAddress"
    ∃ ix', (e.process ctx (some "Order")).run .empty = .ok 2 ix' ∧
      e.overridesOn .attributes "Order" .property site =
        [[{ name := "street" }], [{ name := "city" }]] ∧
      namesIn (standing ix' .attributes site) = ["city"] :=
  ⟨_, rfl, by decide, by decide⟩

end Entity

end Declaration

end MappingMetadata
