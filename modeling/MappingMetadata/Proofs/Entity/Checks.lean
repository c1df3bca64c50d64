import MappingMetadata.Proofs.Declaration.Pruning
import MappingMetadata.Proofs.Entity.Placement
import MappingMetadata.Proofs.Override.Exact

/-!
# What is checked when an entity is processed

What an entity has to write is made from pieces, some of which can fail. Taken by itself, each
failure is that of a *check* on the declaration, the class path and the index as it stands before
anything is written. The checks of an entity form a list, in the order in which they are made.

**Theorem (`process_of_enrol`).** Once an entity is enrolled, processing it succeeds just when it
is acceptable, that is, when all its checks hold. Otherwise the index stays as it was and the error
is that of the first check that does not hold.

The proof computes the error of each piece as the first error of its checks (`error?_writes`).
First errors of lists put together are found from left to right, and the error of one operation
after another is found in the same way.
-/

namespace MappingMetadata

open Override Declaration

/-! ## Checks -/

/-- Declared overrides can be merged with those that the index holds on a site: all of the former
have names and, unless there are none of them, all of the latter. -/
structure Override.Mergeable (f : Family) (ix : Index) (declared : List f.Declared) (site : Site) :
    Prop where
  named : ∀ o ∈ declared, ¬ Text.isBlank (f.name o)
  held : declared ≠ [] → ∀ a ∈ indexed ix f site, a.name?.isSome

theorem Override.mergeable_iff {f : Family} {ix : Index} {declared : List f.Declared}
    {site : Site} : Mergeable f ix declared site ↔
      (∀ o ∈ declared, ¬ Text.isBlank (f.name o)) ∧
        (¬ declared.isEmpty → ∀ a ∈ indexed ix f site, a.name?.isSome) := by
  rw [List.isEmpty_iff]
  exact ⟨fun h => ⟨h.1, h.2⟩, fun h => ⟨h.1, h.2⟩⟩

instance (f : Family) (ix : Index) (declared : List f.Declared) (site : Site) :
    Decidable (Mergeable f ix declared site) :=
  decidable_of_iff _ mergeable_iff.symm

/-- An association has a type, or declares nothing that needs one. -/
def Declaration.AssociationAttribute.Typed (a : AssociationAttribute) : Prop :=
  a.associationType = none → a.cascade = [] ∧ a.targetEntity = none

instance (a : AssociationAttribute) : Decidable a.Typed := inferInstanceAs (Decidable (_ → _))

/-- What is checked of an entity. -/
inductive Check where
  /-- A class can be loaded for the role that it plays. -/
  | loads (name role : String)
  /-- The overrides declared for a site can be merged with those in the index. -/
  | merges (f : Family) (declared : List f.Declared) (site : Site)
  | typed (a : AssociationAttribute)
  /-- A listener of a class has a name. -/
  | named (l : Listener) (owner : String)

namespace Check

def Holds (ctx : Context) (ix : Index) : Check → Prop
  | loads name _ => ctx.classPath.Loads ctx.defaults name
  | merges f declared site => Mergeable f ix declared site
  | typed a => a.Typed
  | named l _ => ¬ Text.isBlank l.className

instance (ctx : Context) (ix : Index) (c : Check) : Decidable (c.Holds ctx ix) :=
  match c with
  | loads name _ => inferInstanceAs (Decidable (ctx.classPath.Loads ctx.defaults name))
  | merges f declared site => inferInstanceAs (Decidable (Mergeable f ix declared site))
  | typed a => inferInstanceAs (Decidable a.Typed)
  | named l _ => inferInstanceAs (Decidable (¬ Text.isBlank l.className))

/-- The error when the check does not hold. -/
def error (ctx : Context) : Check → Error
  | loads name role => .unresolvedClass (ctx.defaults.qualify name) role
  | merges f _ _ => .missingName f.scalar
  | typed a => .untypedAssociation a.name
  | named _ owner => .unnamedListener owner

/-- The error of the first check that does not hold. -/
def firstError (ctx : Context) (ix : Index) (cs : List Check) : Option Error :=
  (cs.find? fun c => ¬ c.Holds ctx ix).map (error ctx)

/-- The check that a class can be loaded if there is one; an empty name counts as none. -/
def loadsAny (name : Option String) (role : String) : List Check :=
  (nonempty? name).toList.map fun c => loads c role

variable {ctx : Context} {ix : Index}

theorem firstError_append (cs ds : List Check) :
    firstError ctx ix (cs ++ ds) = (firstError ctx ix cs).or (firstError ctx ix ds) := by
  rw [firstError, List.find?_append, Option.map_or]
  rfl

theorem firstError_cons (c : Check) (cs : List Check) :
    firstError ctx ix (c :: cs) = (firstError ctx ix [c]).or (firstError ctx ix cs) :=
  firstError_append [c] cs

theorem firstError_flatMap {α : Type} (f : α → List Check) (xs : List α) :
    firstError ctx ix (xs.flatMap f) = xs.findSome? fun x => firstError ctx ix (f x) := by
  unfold firstError
  rw [List.find?_flatMap, List.map_findSome?]
  rfl

theorem firstError_singleton (c : Check) :
    firstError ctx ix [c] = if c.Holds ctx ix then none else some (c.error ctx) := by
  unfold firstError
  by_cases h : c.Holds ctx ix <;> simp [h]

theorem firstError_eq_none_iff {cs : List Check} :
    firstError ctx ix cs = none ↔ ∀ c ∈ cs, c.Holds ctx ix := by
  simp [firstError]

end Check

/-! ## The errors of pieces -/

open Check

variable {ctx : Context} {ix : Index}

theorem Context.error?_resolve (ix : Index) (name role : String) :
    Outcome.error? (ctx.classPath.resolve ctx.defaults name role) =
      firstError ctx ix [.loads name role] := by
  rw [firstError_singleton, ClassPath.error?_resolve]
  rfl

theorem Context.error?_resolve? (ix : Index) (name : Option String) (role : String) :
    Outcome.error? (ctx.resolve? name role) = firstError ctx ix (loadsAny name role) := by
  rw [Context.resolve?, ClassPath.error?_resolve?, loadsAny]
  cases nonempty? name with
  | none => rfl
  | some c => exact ctx.error?_resolve ix c role

theorem Context.error?_overrides (f : Family) (declared : List f.Declared) (site : Site) :
    Outcome.error? (ctx.overrides ix f declared site) =
      firstError ctx ix [.merges f declared site] := by
  have hmerge : Outcome.error? (ctx.overrides ix f declared site) =
      Outcome.error? (mergeFrom f ix.ofKind ctx.dedupe declared (some site)) := by
    unfold Context.overrides mergedAnnotation
    rw [Outcome.error?_map, Outcome.error?_bind (e := none) _ fun _ => rfl, Option.or_none]
    rfl
  rw [hmerge, firstError_singleton]
  by_cases hempty : declared = []
  · subst hempty
    have hholds : (Check.merges f [] site).Holds ctx ix :=
      ⟨fun o ho => absurd ho List.not_mem_nil, fun h => absurd rfl h⟩
    rw [if_pos hholds]
    rfl
  · by_cases hnames : ∀ o ∈ declared, ¬ Text.isBlank (f.name o)
    · rw [mergeFrom_of_names _ _ _ hempty hnames]
      by_cases hheld : ∀ a ∈ indexed ix f site, a.name?.isSome
      · have hholds : (Check.merges f declared site).Holds ctx ix := ⟨hnames, fun _ => hheld⟩
        obtain ⟨items, hitems⟩ := exists_mapM_carry (f := f) fun a ha =>
          Option.isSome_iff_ne_none.1 (hheld a ha)
        rw [if_pos hholds, ← indexed, hitems]
        rfl
      · have hholds : ¬ (Check.merges f declared site).Holds ctx ix :=
          fun h => hheld (h.held hempty)
        push Not at hheld
        obtain ⟨a, ha, hnone⟩ := hheld
        rw [if_neg hholds, ← indexed, mapM_carry_of_nameless ⟨a, ha, by simpa using hnone⟩]
        rfl
    · have hholds : ¬ (Check.merges f declared site).Holds ctx ix := fun h => hnames h.named
      push Not at hnames
      rw [if_neg hholds, mergeFrom_of_blank hnames]
      rfl

namespace Piece

theorem error?_collect_cons (p : Piece) (ps : List Piece) :
    Outcome.error? (collect ctx ix (p :: ps)) =
      (Outcome.error? (p.annotations ctx ix)).or (Outcome.error? (collect ctx ix ps)) := by
  rw [collect]
  refine Outcome.error?_bind _ fun as => ?_
  exact (Outcome.error?_bind (e := none) _ fun _ => rfl).trans Option.or_none

theorem error?_collect_plain_cons (as : List Annotation) (ps : List Piece) :
    Outcome.error? (collect ctx ix (plain as :: ps)) = Outcome.error? (collect ctx ix ps) :=
  error?_collect_cons (plain as) ps

theorem error?_collect_fixed_cons (o : Outcome (List Annotation)) (ps : List Piece) :
    Outcome.error? (collect ctx ix (fixed o :: ps)) =
      (Outcome.error? o).or (Outcome.error? (collect ctx ix ps)) :=
  error?_collect_cons (fixed o) ps

theorem error?_collect_overrides_cons (f : Family) (declared : List f.Declared) (site : Site)
    (ps : List Piece) :
    Outcome.error? (collect ctx ix (overrides f declared site :: ps)) =
      (firstError ctx ix [.merges f declared site]).or (Outcome.error? (collect ctx ix ps)) :=
  (error?_collect_cons (overrides f declared site) ps).trans
    (congrArg (Option.or · _) (ctx.error?_overrides f declared site))

theorem error?_collect_nil : Outcome.error? (collect ctx ix []) = none := rfl

theorem error?_collect_append (ps qs : List Piece) :
    Outcome.error? (collect ctx ix (ps ++ qs)) =
      (Outcome.error? (collect ctx ix ps)).or (Outcome.error? (collect ctx ix qs)) := by
  induction ps with
  | nil => rfl
  | cons p ps ih =>
    rw [List.cons_append, error?_collect_cons, ih, error?_collect_cons, Option.or_assoc]

theorem error?_collect_flatMap {α : Type} (f : α → List Piece) (xs : List α) :
    Outcome.error? (collect ctx ix (xs.flatMap f)) =
      xs.findSome? fun x => Outcome.error? (collect ctx ix (f x)) := by
  induction xs with
  | nil => rfl
  | cons x xs ih =>
    rw [List.flatMap_cons, error?_collect_append, ih, List.findSome?_cons]
    cases Outcome.error? (collect ctx ix (f x)) <;> rfl

end Piece

namespace Declaration

/-! ## The checks of an entity -/

/-- The checks of an association: of its type, of its target entity, and of its overrides. -/
def AssociationAttribute.checks (a : AssociationAttribute) (site : Site) : List Check :=
  .typed a :: (if a.associationType.isSome then loadsAny a.targetEntity "target entity" else []) ++
    [.merges .attributes a.attributeOverrides site,
      .merges .associations a.associationOverrides site]

/-- The checks of a listener of a class. -/
def Listener.checks (l : Listener) (owner : String) : List Check :=
  [.named l owner, .loads l.className "entity listener"]

/-- All checks of an entity, in order. -/
def Entity.checks (e : Entity) (ctx : Context) (ix : Index) : List Check :=
  let className := ctx.defaults.qualify e.className
  let access := e.accessUnder (ctx.access? ix className)
  loadsAny e.idClass "id class" ++
    [.merges .attributes e.attributeOverrides (.onClass className),
      .merges .associations e.associationOverrides (.onClass className)] ++
    (e.associations.flatMap fun a => a.checks (access.site className a.name)) ++
    e.entityListeners.flatMap fun l => l.checks className

theorem AssociationAttribute.error?_annotation (a : AssociationAttribute) (ix : Index)
    (site : Site) :
    Outcome.error? (a.annotation ctx.classPath ctx.defaults site) =
      firstError ctx ix (.typed a ::
        if a.associationType.isSome then loadsAny a.targetEntity "target entity" else []) := by
  rw [firstError_cons, firstError_singleton, annotation]
  cases htype : a.associationType with
  | some type =>
    have hholds : (Check.typed a).Holds ctx ix := fun h => by rw [htype] at h; cases h
    rw [if_pos hholds, Option.none_or, if_pos (Option.isSome_some)]
    refine (Outcome.error?_bind (e := none) _ fun _ => rfl).trans ?_
    rw [Option.or_none]
    exact ctx.error?_resolve? ix a.targetEntity "target entity"
  | none =>
    by_cases hstray : a.cascade.isEmpty && a.targetEntity.isNone
    · have hholds : (Check.typed a).Holds ctx ix := fun _ => by simpa using hstray
      rw [if_pos hholds, if_pos hstray]
      rfl
    · have hholds : ¬ (Check.typed a).Holds ctx ix := fun h => hstray (by simpa using h htype)
      rw [if_neg hholds, if_neg hstray]
      rfl

theorem AssociationAttribute.error?_pieces (a : AssociationAttribute) (site : Site) :
    Outcome.error? (Piece.collect ctx ix (a.pieces ctx site)) =
      firstError ctx ix (a.checks site) := by
  unfold pieces checks
  rw [firstError_append, firstError_cons (.merges .attributes ..)]
  simp only [Piece.error?_collect_fixed_cons, Piece.error?_collect_plain_cons,
    Piece.error?_collect_overrides_cons, Piece.error?_collect_nil, Outcome.error?_map,
    a.error?_annotation ix site, Option.or_none]

theorem Listener.error?_resolve (l : Listener) (ix : Index) (owner : String) :
    Outcome.error? (l.resolve ctx owner) = firstError ctx ix (l.checks owner) := by
  rw [checks, firstError_cons, firstError_singleton, resolve]
  by_cases hblank : Text.isBlank l.className
  · have hholds : ¬ (Check.named l owner).Holds ctx ix := fun h => h hblank
    rw [if_pos hblank, if_neg hholds]
    rfl
  · have hholds : (Check.named l owner).Holds ctx ix := hblank
    rw [if_neg hblank, if_pos hholds, Option.none_or]
    exact ctx.error?_resolve ix l.className "entity listener"

namespace Entity

variable (e : Entity) (ix : Index) (className : String)

theorem error?_idClassWrites : Outcome.error? (e.idClassWrites ctx className) =
    firstError ctx ix (loadsAny e.idClass "id class") := by
  unfold idClassWrites
  rw [Outcome.error?_bind (e := none) _ fun _ => rfl, Option.or_none]
  exact ctx.error?_resolve? ix e.idClass "id class"

theorem error?_listenerWrites : Outcome.error? (e.listenerWrites ctx className) =
    firstError ctx ix (e.entityListeners.flatMap fun l => l.checks className) := by
  have hrest : ∀ classes : List String, Outcome.error? (do
      if e.entityListeners.isEmpty then return []
      return .ofEntries .entityListeners (some (.onClass className))
          [("value", .classRefs classes)] ::
        (e.entityListeners.zip classes).flatMap fun p => p.1.callbacks.writes p.2) = none := by
    intro classes
    split <;> rfl
  unfold listenerWrites
  rw [Outcome.error?_bind _ hrest, Option.or_none, Outcome.error?_mapM, firstError_flatMap]
  congr 1
  funext l
  exact l.error?_resolve ix className

/-- **An entity fails with the error of its first check that does not hold.** -/
theorem error?_writes :
    Outcome.error? (e.writes ctx (ctx.defaults.qualify e.className) ix) =
      firstError ctx ix (e.checks ctx ix) := by
  unfold writes checks
  rw [pieces_eq, ownPieces, firstError_append, firstError_append, firstError_append,
    firstError_flatMap, firstError_cons (.merges .attributes ..)]
  simp only [Piece.error?_collect_fixed_cons, Piece.error?_collect_plain_cons,
    Piece.error?_collect_overrides_cons, Piece.error?_collect_nil, Piece.error?_collect_append,
    Piece.error?_collect_flatMap, AssociationAttribute.error?_pieces,
    e.error?_listenerWrites ix, e.error?_idClassWrites ix, Option.or_none]

end Entity

/-! ## Acceptable entities -/

/-- What has to be the case for an association on a site. -/
structure AssociationAttribute.Acceptable (a : AssociationAttribute) (ctx : Context) (ix : Index)
    (site : Site) : Prop where
  typed : a.Typed
  targetEntity : a.associationType ≠ none →
    ∀ name, a.targetEntity = some name → name ≠ "" → ctx.classPath.Loads ctx.defaults name
  attributeOverrides : Mergeable .attributes ix a.attributeOverrides site
  associationOverrides : Mergeable .associations ix a.associationOverrides site

/-- What has to be the case for an entity to be processed under an index. -/
structure Entity.Acceptable (e : Entity) (ctx : Context) (ix : Index) : Prop where
  idClass : ∀ name, e.idClass = some name → name ≠ "" → ctx.classPath.Loads ctx.defaults name
  attributeOverrides :
    Mergeable .attributes ix e.attributeOverrides (.onClass (ctx.defaults.qualify e.className))
  associationOverrides :
    Mergeable .associations ix e.associationOverrides (.onClass (ctx.defaults.qualify e.className))
  /-- Each association stands on the site where the access type of the entity puts it. -/
  associations : ∀ a ∈ e.associations,
    let className := ctx.defaults.qualify e.className
    a.Acceptable ctx ix ((e.accessUnder (ctx.access? ix className)).site className a.name)
  listeners : ∀ l ∈ e.entityListeners,
    ¬ Text.isBlank l.className ∧ ctx.classPath.Loads ctx.defaults l.className

theorem forall_loadsAny_iff {name : Option String} (role : String) :
    (∀ c ∈ loadsAny name role, c.Holds ctx ix) ↔
      ∀ n, name = some n → n ≠ "" → ctx.classPath.Loads ctx.defaults n := by
  unfold loadsAny nonempty?
  rw [List.forall_mem_map]
  cases name with
  | none => simp
  | some n => by_cases hn : n = "" <;> simp [hn, Check.Holds]

theorem AssociationAttribute.forall_checks_iff (a : AssociationAttribute) (site : Site) :
    (∀ c ∈ a.checks site, c.Holds ctx ix) ↔ a.Acceptable ctx ix site := by
  have htarget : (∀ c ∈ if a.associationType.isSome then loadsAny a.targetEntity "target entity"
      else [], c.Holds ctx ix) ↔ (a.associationType ≠ none →
        ∀ name, a.targetEntity = some name → name ≠ "" →
          ctx.classPath.Loads ctx.defaults name) := by
    cases a.associationType with
    | none => simp
    | some type => simpa using forall_loadsAny_iff "target entity"
  rw [checks, List.forall_mem_append, List.forall_mem_cons, htarget, List.forall_mem_cons,
    List.forall_mem_singleton]
  exact ⟨fun ⟨⟨htyped, htarget⟩, hattributes, hassociations⟩ =>
      ⟨htyped, htarget, hattributes, hassociations⟩,
    fun h => ⟨⟨h.typed, h.targetEntity⟩, h.attributeOverrides, h.associationOverrides⟩⟩

theorem Listener.forall_checks_iff (l : Listener) (owner : String) :
    (∀ c ∈ l.checks owner, c.Holds ctx ix) ↔
      ¬ Text.isBlank l.className ∧ ctx.classPath.Loads ctx.defaults l.className := by
  rw [checks, List.forall_mem_cons, List.forall_mem_singleton]
  rfl

/-- An entity is acceptable when all its checks hold. -/
theorem Entity.forall_checks_iff (e : Entity) :
    (∀ c ∈ e.checks ctx ix, c.Holds ctx ix) ↔ e.Acceptable ctx ix := by
  unfold checks
  rw [List.forall_mem_append, List.forall_mem_append, List.forall_mem_append, forall_loadsAny_iff,
    List.forall_mem_cons, List.forall_mem_singleton, List.forall_mem_flatMap,
    List.forall_mem_flatMap]
  simp only [AssociationAttribute.forall_checks_iff, Listener.forall_checks_iff]
  exact ⟨fun ⟨⟨⟨hid, hattributes, hoverrides⟩, hassociations⟩, hlisteners⟩ =>
      ⟨hid, hattributes, hoverrides, hassociations, hlisteners⟩,
    fun h => ⟨⟨⟨h.idClass, h.attributeOverrides, h.associationOverrides⟩, h.associations⟩,
      h.listeners⟩⟩

/-- **When processing an entity fails.** An enrolled entity is processed successfully just when it
is acceptable under the index as enrolling has left it. Otherwise it fails with the error of the
first of its checks that does not hold, and the index stays as it was. -/
theorem Entity.process_of_enrol {e : Entity} {ctx : Context} {ix staged : Index}
    {className : String} (h : (e.enrol ctx.defaults).run ix = .ok className staged) :
    ((∃ n jx, (e.process ctx (some className)).run staged = .ok n jx) ↔
      e.Acceptable ctx staged) ∧
      ∀ err jx, (e.process ctx (some className)).run staged = .error err jx ↔
        jx = staged ∧ firstError ctx staged (e.checks ctx staged) = some err := by
  have hname : className = ctx.defaults.qualify e.className := by
    rw [run_enrol] at h
    split at h
    · cases h
    · cases h
      rfl
  rw [run_process, ← forall_checks_iff, ← firstError_eq_none_iff, ← error?_writes, hname]
  cases e.writes ctx (ctx.defaults.qualify e.className) staged with
  | ok as => simp [Outcome.error?]
  | error err => simp [Outcome.error?, eq_comm, and_comm]

/-- The overrides of the class can be merged and the first association is in order. The second has
a cascade without a type; that a listener has no name would be found later. -/
theorem Entity.process_of_enrol_untyped :
    let e : Entity := {
      className := "Order"
      access := some .property
      idClass := some "OrderId"
      attributeOverrides := [{ name := "city" }]
      associations := [
        { name := "customer", associationType := some .manyToOne, targetEntity := some "Customer",
          associationOverrides := [{ name := "address" }] },
        { name := "lines", cascade := [.all] }]
      entityListeners := [{ className := " " }] }
    let ctx : Context :=
      { defaults := { package := some "shop" },
        classPath := .only ["shop.OrderId", "shop.Customer"] }
    let ix : Index := .ofList [
      .wrapper .attributeOverrides (some (.onClass "shop.Order"))
        [AttributeOverride.annotation { name := "zip" } none],
      .marker .attributeOverride (some (.onField "shop.Order" "lines"))]
    ∃ className staged, (e.enrol ctx.defaults).run ix = .ok className staged ∧
      (e.process ctx (some className)).run staged = .error (.untypedAssociation "lines") staged ∧
      ¬ e.Acceptable ctx staged := by
  intro e ctx ix
  have henrol : (e.enrol ctx.defaults).run ix =
      .ok (ctx.defaults.qualify e.className) (e.enrolled ctx.defaults ix) := by
    rw [run_enrol]
    exact if_neg (by decide +kernel)
  obtain ⟨hok, herror⟩ := process_of_enrol henrol
  have hrun := (herror (.untypedAssociation "lines") _).2 ⟨rfl, by decide +kernel⟩
  refine ⟨_, _, henrol, hrun, fun hacceptable => ?_⟩
  obtain ⟨n, jx, hn⟩ := hok.2 hacceptable
  rw [hrun] at hn
  cases hn

end Declaration

end MappingMetadata
