import MappingMetadata.Proofs.Globals.Harvesting
import MappingMetadata.Proofs.Session.GlobalDeclarations

/-!
# Starting over an index

A session over an index takes the global declarations out of the index and into its registry.
Harvesting goes by the kind that each annotation states, removing by the kind under which it
stands. In an index that stands by kind the two agree, so what is removed has been harvested.

**Theorem (`ofIndex_takesOver`).** The session starts just when every declaration in the index can
be registered. It then holds the last of each kind and name, and the rest of the index as it was.
-/

namespace MappingMetadata

/-! ## Removing kinds -/

namespace Index

/-- Every annotation stands under its own kind. -/
def ByKind (ix : Index) : Prop := ∀ c k, ∀ a ∈ ix.ofKind c k, a.kind = k

theorem ByKind.push {ix : Index} (h : ix.ByKind) (a : Annotation) : (ix.push a).ByKind := by
  cases hs : a.site with
  | none => rwa [show ix.push a = ix by rw [Index.push, hs]]
  | some site =>
    intro c k b hb
    rw [ofKind_push ix hs] at hb
    split at hb
    · rename_i hk
      rcases List.mem_append.1 hb with hb | hb
      · exact h c k b hb
      · exact List.mem_singleton.1 hb ▸ hk.2
    · exact h c k b hb

theorem byKind_ofList (as : List Annotation) : (ofList as).ByKind := by
  unfold ofList
  induction as using List.reverseRecOn with
  | nil => exact fun c k a ha => by cases ha
  | append_singleton as a ih =>
    rw [List.foldl_append]
    exact ih.push a

variable (ix : Index) (ks : List Kind)

theorem ofKind_foldl_removeKind (c : String) (k : Kind) :
    (ks.foldl removeKind ix).ofKind c k = if k ∈ ks then [] else ix.ofKind c k := by
  induction ks generalizing ix with
  | nil => rfl
  | cons k' ks ih =>
    rw [List.foldl_cons, ih, ofKind_removeKind]
    by_cases hk : k ∈ ks
    · rw [if_pos hk, if_pos (List.mem_cons_of_mem _ hk)]
    · have hcons : k ∈ k' :: ks ↔ k' = k := by rw [List.mem_cons, or_iff_left hk, eq_comm]
      simp only [if_neg hk, hcons]

theorem keys_foldl_removeKind : (ks.foldl removeKind ix).classes.keys = ix.classes.keys := by
  induction ks generalizing ix with
  | nil => rfl
  | cons k ks ih => rw [List.foldl_cons, ih, removeKind, Dict.keys_mapValues]

theorem isComplete_removeKind (k : Kind) (c : String) :
    (ix.removeKind k).isComplete c = ix.isComplete c := by
  rw [isComplete, isComplete, entry?, entry?, removeKind, Dict.get?_mapValues]
  cases ix.classes.get? c <;> rfl

theorem isComplete_foldl_removeKind (c : String) :
    (ks.foldl removeKind ix).isComplete c = ix.isComplete c := by
  induction ks generalizing ix with
  | nil => rfl
  | cons k ks ih => rw [List.foldl_cons, ih, isComplete_removeKind]

end Index

namespace Session

open Declaration

/-! ## The session that starts -/

theorem mem_takenKinds_iff {k : Kind} : k ∈ takenKinds ↔ k.IsGlobal := by
  unfold takenKinds Kind.IsGlobal
  rw [List.mem_flatMap]
  constructor
  · rintro ⟨g, -, hk⟩
    exact ⟨g, by simpa using hk⟩
  · rintro ⟨g, hk⟩
    exact ⟨g, g.mem_all, by simpa using hk⟩

/-- The session that has taken the declarations over. -/
def takingOver (settings : Settings) (ix : Index) : Session :=
  { start settings with
    index := takenKinds.foldl Index.removeKind ix
    globals := Globals.empty.registerBuilt (Globals.harvested ix) }

theorem ofIndex_eq_ok_iff {settings : Settings} {ix : Index} {s : Session} :
    ofIndex settings ix = .ok s ↔
      (∀ a ∈ Globals.harvest ix, (∃ g : GlobalKind, a.kind = g.scalar) ∧ a.name?.isSome) ∧
        s = takingOver settings ix := by
  have hall : (∀ a ∈ Globals.harvest ix, (∃ g : GlobalKind, a.kind = g.scalar) ∧ a.name?.isSome) ↔
      ∃ bs, (Globals.harvest ix).mapM Globals.registration = .ok bs := by
    rw [Outcome.exists_mapM_iff]
    exact forall₂_congr fun a _ => Globals.exists_registration_iff.symm
  rw [hall]
  constructor
  · intro h
    refine ⟨⟨_, (globals_ofIndex h).2⟩, ?_⟩
    have hglobals := (globals_ofIndex h).1
    unfold ofIndex at h
    split at h
    · cases h
    · cases h
      exact congrArg (fun globals => { start settings with
        index := takenKinds.foldl Index.removeKind ix, globals := globals }) hglobals
  · rintro ⟨⟨bs, hbs⟩, rfl⟩
    have hharvested : Globals.harvested ix = bs := Globals.filterMap_registration hbs
    rw [ofIndex, Globals.registerAll_of_mapM hbs, takingOver, hharvested]

/-- What has become of an index from which the declarations were taken over. -/
structure TakesOver (settings : Settings) (ix : Index) (s : Session) : Prop where
  configured : s.settings = settings ∧ s.classPath = .ofSettings settings
  /-- Registered are the names of the declarations that the index held. -/
  names : ∀ g name, name ∈ s.globals.names g ↔
    ∃ a ∈ Globals.harvest ix, a.kind = g.scalar ∧ a.name? = some name
  /-- Of several declarations of a name the last one counts. -/
  latest : ∀ g name, s.globals.get? g name =
    ((Globals.harvest ix).filter fun a => a.kind = g.scalar ∧ a.name? = some name).getLast?.map
      Annotation.detached
  /-- The index holds no declaration and no wrapper any more. -/
  taken : ∀ a ∈ s.index.toList, ¬ a.kind.IsGlobal
  emptied : ∀ c k, k.IsGlobal → s.index.ofKind c k = []
  kept : ∀ c k, ¬ k.IsGlobal → s.index.ofKind c k = ix.ofKind c k
  classes : s.index.classes.keys = ix.classes.keys
  complete : ∀ c, s.index.isComplete c = ix.isComplete c
  /-- The finished metadata hold what is registered, and nothing else. -/
  finished : s.finish.globals.flatMap Annotation.declarations =
    GlobalKind.all.flatMap fun g => (s.globals.names g).filterMap (s.globals.get? g)
  /-- The finished metadata report each kind and name that the index held once. -/
  once : ((s.finish.globals.flatMap Annotation.declarations).map Annotation.label).Nodup
  reported : ∀ p, p ∈ (s.finish.globals.flatMap Annotation.declarations).map Annotation.label ↔
    p ∈ (Globals.harvest ix).map Annotation.label

variable {settings : Settings} {ix : Index}

/-- A registry that has registered what was harvested has just these names. -/
theorem mem_names_harvested_iff {g : GlobalKind} {name : String} :
    name ∈ (Globals.empty.registerBuilt (Globals.harvested ix)).names g ↔
      ∃ a ∈ Globals.harvest ix, a.kind = g.scalar ∧ a.name? = some name := by
  rw [Globals.mem_names_iff, Globals.harvested, Globals.get?_registrations, Option.isSome_map,
    List.getLast?_isSome, Ne, List.filter_eq_nil_iff]
  simp

theorem proper_harvested (ix : Index) :
    (Globals.empty.registerBuilt (Globals.harvested ix)).Proper := by
  refine (Globals.holds_registerBuilt fun b hb => ?_).2.2.1
  obtain ⟨a, -, ha⟩ := List.mem_filterMap.1 hb
  exact Globals.proper_of_registration (Outcome.toOption_eq_some_iff.1 ha)

theorem takesOver_takingOver (hkind : ix.ByKind)
    (hall : ∀ a ∈ Globals.harvest ix, (∃ g : GlobalKind, a.kind = g.scalar) ∧ a.name?.isSome) :
    TakesOver settings ix (takingOver settings ix) := by
  have hofKind : ∀ c k, (takingOver settings ix).index.ofKind c k =
      if k ∈ takenKinds then [] else ix.ofKind c k := ix.ofKind_foldl_removeKind takenKinds
  have hemptied : ∀ c k, k.IsGlobal → (takingOver settings ix).index.ofKind c k = [] :=
    fun c k hk => (hofKind c k).trans (if_pos (mem_takenKinds_iff.2 hk))
  have hkept : ∀ c k, ¬ k.IsGlobal → (takingOver settings ix).index.ofKind c k = ix.ofKind c k :=
    fun c k hk => (hofKind c k).trans (if_neg fun h => hk (mem_takenKinds_iff.1 h))
  -- Removing goes by the kind under which an annotation stands, so this needs `hkind`.
  have htaken : ∀ a ∈ (takingOver settings ix).index.toList, ¬ a.kind.IsGlobal := by
    intro a ha hglobal
    obtain ⟨c, k, ha⟩ := (Index.mem_toList_iff _ a).1 ha
    by_cases hk : k.IsGlobal
    · rw [hemptied c k hk] at ha
      cases ha
    · rw [hkept c k hk] at ha
      exact hk (hkind c k a ha ▸ hglobal)
  obtain ⟨honce, hreported⟩ := Globals.labels_finish (proper_harvested ix)
  exact {
    configured := ⟨rfl, rfl⟩
    names := fun g name => mem_names_harvested_iff
    latest := Globals.get?_registrations (Globals.harvest ix)
    taken := htaken
    emptied := hemptied
    kept := hkept
    classes := ix.keys_foldl_removeKind takenKinds
    complete := ix.isComplete_foldl_removeKind takenKinds
    finished := (Globals.declarations_finish (proper_harvested ix)).trans
      (List.flatMap_congr fun g _ => (Dict.filterMap_get?_keys _).symm)
    once := honce
    reported := by
      rintro ⟨k, name⟩
      refine (hreported k name).trans ?_
      rw [List.mem_map]
      constructor
      · rintro ⟨g, n, rfl, rfl, hn⟩
        obtain ⟨a, ha, hk, hname⟩ := mem_names_harvested_iff.1 hn
        exact ⟨a, ha, Prod.ext hk hname⟩
      · rintro ⟨a, ha, hlabel⟩
        obtain ⟨rfl, rfl⟩ := Prod.ext_iff.1 hlabel
        obtain ⟨⟨g, hk⟩, hsome⟩ := hall a ha
        obtain ⟨n, hname⟩ := Option.isSome_iff_exists.1 hsome
        exact ⟨g, n, hk, hname, mem_names_harvested_iff.2 ⟨a, ha, hk, hname⟩⟩ }

/-- **Starting over an index.** A session starts over an index that stands by kind just when each
single declaration in it has a name, and each member of a wrapper of declarations is a single
declaration and has a name. The declarations are then in the registry, the last of each name, and
no longer in the index, of which nothing else has changed. -/
theorem ofIndex_takesOver (settings : Settings) {ix : Index} (h : ix.ByKind) :
    ((ofIndex settings ix).isOk ↔
      (∀ a ∈ ix.toList, (∃ g : GlobalKind, a.kind = g.scalar) → a.name?.isSome) ∧
        ∀ w ∈ ix.toList, (∃ g : GlobalKind, w.kind = g.wrapper) →
          ∀ a ∈ w.members, (∃ g : GlobalKind, a.kind = g.scalar) ∧ a.name?.isSome) ∧
      ∀ s, ofIndex settings ix = .ok s → TakesOver settings ix s := by
  constructor
  · simp only [Outcome.isOk_iff, ofIndex_eq_ok_iff, exists_and_left, exists_eq, and_true,
      Globals.mem_harvest_iff]
    constructor
    · intro hall
      exact ⟨fun a ha hg => (hall a (Or.inl ⟨ha, hg⟩)).2,
        fun w hw hg a ha => hall a (Or.inr ⟨w, hw, hg, ha⟩)⟩
    · rintro ⟨hscalar, hmember⟩ a (⟨ha, hg⟩ | ⟨w, hw, hg, ha⟩)
      · exact ⟨hg, hscalar a ha hg⟩
      · exact hmember w hw hg a ha
  · intro s hs
    obtain ⟨hall, rfl⟩ := ofIndex_eq_ok_iff.1 hs
    exact takesOver_takingOver h hall

/-- A query stands on one class and is repeated in the wrapper on another. -/
theorem takesOver_repeated_query :
    let query := fun name text : String =>
      NamedQuery.annotation { name := some name, query := some text }
    let ix : Index := .ofList
      [(query "open" "select o from Order o").withSite (some (.onClass "Order")),
        .marker .lob (some (.onField "Order" "note")),
        .wrapper .namedQueries (some (.onClass "Item"))
          [query "paid" "select p from Item p", query "open" "select i from Item i"]]
    ∃ s, ofIndex {} ix = .ok s ∧ TakesOver {} ix s ∧
      (s.globals.get? .namedQuery "open").bind (fun a => a.string? "query") =
        some "select i from Item i" := by
  intro query ix
  have hs : ofIndex {} ix = .ok _ := rfl
  have htakes := (ofIndex_takesOver {} (Index.byKind_ofList _)).2 _ hs
  exact ⟨_, hs, htakes, by rw [htakes.latest]; decide +kernel⟩

end Session

end MappingMetadata
