import Mathlib.Data.List.Induction
import MappingMetadata.Globals.Build
import MappingMetadata.Proofs.Outcome

/-!
# Registrations

A registry is the outcome of a list of registrations. Read off the list, without the registry:
the names of a kind are its distinct names in the order in which they first occur, and the
declaration of a name is the last one.

**Theorem (`holds_registerBuilt`).** A registry that has registered a list of proper declarations
holds just that, and finishes it kind by kind.
-/

namespace MappingMetadata

theorem Annotation.withSite_none {a : Annotation} (h : a.site = none) : a.withSite none = a := by
  cases a
  cases h
  rfl

theorem Annotation.map_withSite_none {as : List Annotation} (h : ∀ a ∈ as, a.site = none) :
    as.map (fun a => a.withSite none) = as :=
  (List.map_congr_left fun a ha => withSite_none (h a ha)).trans (List.map_id as)

namespace BuiltGlobal

/-- The distinct names of a kind, in the order in which they first occur. -/
def names (bs : List BuiltGlobal) (k : GlobalKind) : List String :=
  ((bs.filter fun b => b.kind = k).map BuiltGlobal.name).eraseDups

/-- The last declaration of a name. -/
def latest? (bs : List BuiltGlobal) (k : GlobalKind) (name : String) : Option Annotation :=
  (bs.reverse.find? fun b => b.kind = k ∧ b.name = name).map BuiltGlobal.annotation

/-- For each kind nothing, the one declaration, or one wrapper of all in the order of names. -/
def finished (bs : List BuiltGlobal) : List Annotation :=
  GlobalKind.all.filterMap fun k =>
    match (names bs k).filterMap (latest? bs k) with
    | [] => none
    | [a] => some a
    | as => some (.wrapper k.wrapper none as)

/-- An annotation of the right kind, with the name under which it is registered and no site. -/
structure Proper (b : BuiltGlobal) : Prop where
  kind : b.annotation.kind = b.kind.scalar
  name : b.annotation.name? = some b.name
  site : b.annotation.site = none

theorem names_concat (bs : List BuiltGlobal) (b : BuiltGlobal) (k : GlobalKind) :
    names (bs ++ [b]) k =
      if b.kind = k ∧ b.name ∉ names bs k then names bs k ++ [b.name] else names bs k := by
  unfold names
  rw [List.filter_append, List.map_append, List.eraseDups_append]
  by_cases hk : b.kind = k
  · by_cases hn : b.name ∈ (bs.filter fun b => b.kind = k).map BuiltGlobal.name
    · simp [hk, hn, List.removeAll]
    · simp [hk, hn, List.removeAll, List.eraseDups_cons]
  · simp [hk]

theorem latest?_concat (bs : List BuiltGlobal) (b : BuiltGlobal) (k : GlobalKind) (name : String) :
    latest? (bs ++ [b]) k name =
      if b.kind = k ∧ b.name = name then some b.annotation else latest? bs k name := by
  unfold latest?
  rw [List.reverse_append, List.reverse_singleton, List.singleton_append, List.find?_cons]
  by_cases h : b.kind = k ∧ b.name = name
  · rw [if_pos h, decide_eq_true h]
    rfl
  · rw [if_neg h, decide_eq_false h]

theorem exists_of_latest? {bs : List BuiltGlobal} {k : GlobalKind} {name : String} {a : Annotation}
    (h : latest? bs k name = some a) : ∃ b ∈ bs, b.kind = k ∧ b.name = name ∧ b.annotation = a := by
  obtain ⟨b, hb, rfl⟩ := Option.map_eq_some_iff.1 h
  have hkey := List.find?_some hb
  obtain ⟨hk, hn⟩ := of_decide_eq_true hkey
  exact ⟨b, List.mem_reverse.1 (List.mem_of_find?_eq_some hb), hk, hn, rfl⟩

theorem named_eq_ok {k : GlobalKind} {a : Annotation} {b : BuiltGlobal} (h : named k a = .ok b) :
    ∃ name, a.name? = some name ∧ b = ⟨k, name, a⟩ := by
  unfold named at h
  cases hn : a.name? with
  | none => simp [hn] at h
  | some name =>
    rw [hn] at h
    cases h
    exact ⟨name, rfl, rfl⟩

end BuiltGlobal

namespace Globals

open BuiltGlobal

theorem registerBuilt_append (g : Globals) (bs cs : List BuiltGlobal) :
    g.registerBuilt (bs ++ cs) = (g.registerBuilt bs).registerBuilt cs := List.foldl_append

theorem registerBuilt_concat (g : Globals) (bs : List BuiltGlobal) (b : BuiltGlobal) :
    g.registerBuilt (bs ++ [b]) = (g.registerBuilt bs).register b.kind b.name b.annotation :=
  registerBuilt_append g bs [b]

theorem get?_registerBuilt (g : Globals) (bs : List BuiltGlobal) (k : GlobalKind) (name : String) :
    (g.registerBuilt bs).get? k name = (latest? bs k name).or (g.get? k name) := by
  induction bs using List.reverseRecOn with
  | nil => rfl
  | append_singleton bs b ih =>
    rw [registerBuilt_concat, get?_register, latest?_concat, ih]
    split <;> rfl

theorem names_registerBuilt (bs : List BuiltGlobal) (k : GlobalKind) :
    (empty.registerBuilt bs).names k = BuiltGlobal.names bs k := by
  induction bs using List.reverseRecOn with
  | nil => rfl
  | append_singleton bs b ih => rw [registerBuilt_concat, names_register, names_concat, ih]

/-- **What a registry holds.** Its names and its declarations are those of the list of
registrations, every declaration is of its kind, under its name and on no site, and finishing
yields what the list says. -/
theorem holds_registerBuilt {bs : List BuiltGlobal} (hbs : ∀ b ∈ bs, b.Proper) :
    (∀ k, (empty.registerBuilt bs).names k = BuiltGlobal.names bs k) ∧
      (∀ k name, (empty.registerBuilt bs).get? k name = latest? bs k name) ∧
      (∀ k name a, (empty.registerBuilt bs).get? k name = some a →
        a.kind = k.scalar ∧ a.name? = some name ∧ a.site = none) ∧
      (empty.registerBuilt bs).finish = finished bs := by
  have hnames := names_registerBuilt bs
  have hget : ∀ k name, (empty.registerBuilt bs).get? k name = latest? bs k name := by
    intro k name
    rw [get?_registerBuilt]
    exact Option.or_none
  have hproper : ∀ k name a, (empty.registerBuilt bs).get? k name = some a →
      a.kind = k.scalar ∧ a.name? = some name ∧ a.site = none := by
    intro k name a ha
    rw [hget] at ha
    obtain ⟨b, hb, rfl, rfl, rfl⟩ := exists_of_latest? ha
    exact ⟨(hbs b hb).kind, (hbs b hb).name, (hbs b hb).site⟩
  refine ⟨hnames, hget, hproper, List.filterMap_congr fun k _ => ?_⟩
  have hvalues : ((empty.registerBuilt bs).group k).values =
      (BuiltGlobal.names bs k).filterMap (latest? bs k) := by
    rw [← Dict.filterMap_get?_keys, ← hnames]
    exact List.filterMap_congr fun name _ => hget k name
  have hsite : ∀ a ∈ ((empty.registerBuilt bs).group k).values, a.site = none := by
    intro a ha
    obtain ⟨name, hname⟩ := (Dict.mem_values_iff _ a).1 ha
    exact (hproper k name a hname).2.2
  rw [← hvalues]
  generalize ((empty.registerBuilt bs).group k).values = as at hsite
  match as with
  | [] => rfl
  | [a] => exact congrArg some <| Annotation.withSite_none (hsite a List.mem_cons_self)
  | a :: b :: rest =>
    have hall := Annotation.map_withSite_none hsite
    exact congrArg (fun as => some <| Annotation.wrapper k.wrapper none as) hall

/-! ## Registering again -/

theorem mem_names_iff (g : Globals) (k : GlobalKind) (name : String) :
    name ∈ g.names k ↔ (g.get? k name).isSome :=
  Dict.mem_keys_iff (g.group k) name

theorem names_registerBuilt_of_mem {g : Globals} {bs : List BuiltGlobal}
    (h : ∀ b ∈ bs, b.name ∈ g.names b.kind) (k : GlobalKind) :
    (g.registerBuilt bs).names k = g.names k := by
  induction bs using List.reverseRecOn with
  | nil => rfl
  | append_singleton bs b ih =>
    have hb : b.name ∈ g.names b.kind := h b (List.mem_append_right _ (List.mem_singleton_self b))
    have hprev := ih fun b' hb' => h b' (List.mem_append_left _ hb')
    rw [registerBuilt_concat, names_register, hprev]
    refine if_neg ?_
    rintro ⟨rfl, hnew⟩
    exact hnew hb

/-- Registering the same declarations again changes nothing. -/
theorem registerBuilt_registerBuilt (g : Globals) (bs : List BuiltGlobal) :
    (g.registerBuilt bs).registerBuilt bs = g.registerBuilt bs := by
  have hmem : ∀ b ∈ bs, b.name ∈ (g.registerBuilt bs).names b.kind := by
    intro b hb
    rw [mem_names_iff, get?_registerBuilt]
    have hlatest : (latest? bs b.kind b.name).isSome := by
      unfold latest?
      rw [Option.isSome_map, List.find?_isSome]
      exact ⟨b, List.mem_reverse.2 hb, decide_eq_true ⟨rfl, rfl⟩⟩
    cases hl : latest? bs b.kind b.name with
    | none => rw [hl] at hlatest; cases hlatest
    | some a => rfl
  have hgroup : ((g.registerBuilt bs).registerBuilt bs).group = (g.registerBuilt bs).group := by
    funext k
    refine Dict.ext_get? (names_registerBuilt_of_mem hmem k) fun name => ?_
    have hget := get?_registerBuilt (g.registerBuilt bs) bs k name
    rw [get?_registerBuilt g, ← Option.or_assoc, Option.or_self] at hget
    exact hget.trans (get?_registerBuilt g bs k name).symm
  exact congrArg Globals.mk hgroup

/-! ## Where registrations come from -/

/-- The registration of an annotation under its own kind and name, without its site. -/
def registration (a : Annotation) : Outcome BuiltGlobal :=
  (key a).map fun p => ⟨p.1, p.2, a.detached⟩

/-- The declarations that an index holds, in the order in which they are found. -/
def harvested (ix : Index) : List BuiltGlobal :=
  (harvest ix).filterMap fun a => (registration a).toOption

theorem proper_of_registration {a : Annotation} {b : BuiltGlobal} (h : registration a = .ok b) :
    b.Proper := by
  obtain ⟨p, hp, rfl⟩ := Outcome.map_eq_ok_iff.1 h
  unfold key at hp
  cases hk : GlobalKind.ofScalar? a.kind with
  | none => simp [hk] at hp
  | some k =>
    cases hn : a.name? with
    | none => simp [hk, hn] at hp
    | some name =>
      rw [hk, hn] at hp
      cases hp
      exact ⟨((GlobalKind.ofScalar?_eq_some_iff a.kind k).1 hk).symm, hn, rfl⟩

/-- Annotations that are all registered are registered in their order, none left out. -/
theorem registerAll_eq_none {g g' : Globals} {as : List Annotation}
    (h : g.registerAll as = (g', none)) :
    ∃ bs, as.mapM registration = .ok bs ∧ g' = g.registerBuilt bs := by
  induction as generalizing g with
  | nil =>
    cases h
    exact ⟨[], rfl, rfl⟩
  | cons a as ih =>
    rw [registerAll, registerOwn] at h
    cases hkey : key a with
    | error e => simp [hkey, Except.map] at h
    | ok p =>
      simp only [hkey, Except.map] at h
      obtain ⟨bs, hbs, rfl⟩ := ih h
      refine ⟨⟨p.1, p.2, a.detached⟩ :: bs, ?_, rfl⟩
      rw [Outcome.mapM_eq_ok_iff] at hbs ⊢
      exact .cons (Outcome.map_eq_ok_iff.2 ⟨p, hkey, rfl⟩) hbs

theorem filterMap_registration {as : List Annotation} {bs : List BuiltGlobal}
    (h : as.mapM registration = .ok bs) :
    as.filterMap (fun a => (registration a).toOption) = bs := by
  have hall := Outcome.mapM_eq_ok_iff.1 h
  clear h
  induction hall with
  | nil => rfl
  | cons hb _ ih => rw [List.filterMap_cons_some (by rw [hb]; rfl), ih]

end Globals

namespace Declaration.GlobalDeclarations

theorem kind_of_mem_annotations {g : GlobalDeclarations} {path : ClassPath} {d : Defaults}
    {k : GlobalKind} {a : Annotation} (h : (k, Except.ok a) ∈ g.annotations path d) :
    a.kind = k.scalar ∧ a.site = none := by
  simp only [annotations, List.mem_append, List.mem_map, Prod.mk.injEq] at h
  rcases h with (((⟨t, -, rfl, h⟩ | ⟨t, -, rfl, h⟩) | ⟨q, -, rfl, h⟩) | ⟨q, -, rfl, h⟩) |
    ⟨m, -, rfl, h⟩
  · cases h
    exact ⟨rfl, rfl⟩
  · cases h
    exact ⟨rfl, rfl⟩
  · cases h
    exact ⟨rfl, rfl⟩
  · obtain ⟨c, -, h⟩ := Outcome.bind_eq_ok_iff.1 h
    cases h
    exact ⟨rfl, rfl⟩
  · obtain ⟨es, -, h⟩ := Outcome.bind_eq_ok_iff.1 h
    cases h
    exact ⟨rfl, rfl⟩

/-- What a document builds is proper. -/
theorem proper_build {g : GlobalDeclarations} {path : ClassPath} {d : Defaults}
    {bs : List BuiltGlobal} (h : g.build path d = .ok bs) : ∀ b ∈ bs, b.Proper := by
  intro b hb
  obtain ⟨⟨k, result⟩, hmem, hresult⟩ := Outcome.exists_of_mem_mapM h hb
  obtain ⟨a, rfl, hnamed⟩ := Outcome.bind_eq_ok_iff.1 hresult
  obtain ⟨hkind, hsite⟩ := kind_of_mem_annotations hmem
  obtain ⟨name, hn, rfl⟩ := BuiltGlobal.named_eq_ok hnamed
  exact ⟨hkind, hn, hsite⟩

end Declaration.GlobalDeclarations

end MappingMetadata
