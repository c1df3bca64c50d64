import MappingMetadata.Override.Family
import MappingMetadata.Proofs.Index.Slots

/-!
# Views of an index

A *view* of annotations may leave fields out or change them, but it keeps kinds and sites, and the
text of the field `value`, which states an access type. Kinds and sites are all that writing to an
index looks at, so what a write leaves shows in the view as what the view of the annotation leaves
(`view_write`, `view_writeAll`). Two indexes that look alike therefore look alike after writes that
do, and they state the same access types (`access?_view`).
-/

namespace MappingMetadata

/-! ## Ordered maps -/

theorem Assoc.map_put {κ ν μ : Type} [DecidableEq κ] (f : ν → μ) (m : List (κ × ν)) (k : κ)
    (v : ν) :
    (put m k v).map (fun p => (p.1, f p.2)) = put (m.map fun p => (p.1, f p.2)) k (f v) := by
  induction m with
  | nil => rfl
  | cons p m ih =>
    by_cases hk : p.1 = k
    · rw [put, if_pos hk, List.map_cons, List.map_cons, put, if_pos hk]
    · rw [put, if_neg hk, List.map_cons, List.map_cons, put, if_neg hk, ih]

namespace Dict

variable {κ ν μ : Type}

theorem mapValues_id (d : Dict κ ν) : d.mapValues id = d := by
  simp [mapValues]

variable [DecidableEq κ]

theorem mapValues_put (f : ν → μ) (d : Dict κ ν) (k : κ) (v : ν) :
    (d.put k v).mapValues f = (d.mapValues f).put k (f v) := by
  simp only [mapValues, put, Assoc.map_put]

theorem mapValues_modify {f : ν → μ} {g : ν → ν} {h : μ → μ} (hfg : ∀ v, f (g v) = h (f v))
    (d : Dict κ ν) (k : κ) : (d.modify k g).mapValues f = (d.mapValues f).modify k h := by
  unfold modify
  rw [get?_mapValues]
  cases d.get? k with
  | none => rfl
  | some v => exact (mapValues_put f d k (g v)).trans (by rw [hfg]; rfl)

end Dict

/-! ## Views -/

/-- A way to look at annotations that keeps kinds, sites and stated access types, and looks at a
wrapper of overrides member by member. -/
structure Annotation.View (F : Annotation → Annotation) : Prop where
  kind : ∀ a, (F a).kind = a.kind
  site : ∀ a, (F a).site = a.site
  value : ∀ a, (F a).string? "value" = a.string? "value"
  /-- A wrapper shows what its members show, -/
  wrapper : ∀ (f : Override.Family) (site : Option Site) (members : List Annotation),
    (∀ m ∈ members, m.kind = f.scalar) →
      F (wrapper f.wrapper site members) = wrapper f.wrapper site (members.map F)
  /-- and from whatever looks the same, members that look the same can be taken. -/
  members : ∀ a b, F a = F b → a.members.map F = b.members.map F

/-- To look at everything is a view. -/
theorem Annotation.view_id : View id where
  kind _ := rfl
  site _ := rfl
  value _ := rfl
  wrapper _ _ _ _ := by rw [List.map_id, id]
  members a b h := by rw [show a = b from h]

variable {F : Annotation → Annotation}

namespace ClassEntry

/-- What is known of a class, in a view. -/
def view (F : Annotation → Annotation) (e : ClassEntry) : ClassEntry :=
  { e with annotations := e.annotations.mapValues (List.map F) }

theorem ofKind_view (e : ClassEntry) (k : Kind) : (e.view F).ofKind k = (e.ofKind k).map F := by
  unfold ofKind view
  rw [Dict.get?_mapValues]
  cases e.annotations.get? k <;> rfl

theorem view_push (hF : Annotation.View F) (e : ClassEntry) (a : Annotation) :
    (e.push a).view F = (e.view F).push (F a) := by
  have hlist : (e.ofKind a.kind ++ [a]).map F = (e.view F).ofKind a.kind ++ [F a] := by
    rw [List.map_append, ofKind_view]
    rfl
  unfold push
  rw [hF.kind, ← hlist]
  exact congrArg (fun m => ({ e with annotations := m } : ClassEntry)) (Dict.mapValues_put _ _ _ _)

theorem view_removeAt (hF : Annotation.View F) (e : ClassEntry) (site : Site) (k : Kind) :
    (e.removeAt site k).view F = (e.view F).removeAt site k := by
  refine congrArg (fun m => ({ e with annotations := m } : ClassEntry))
    (Dict.mapValues_modify (fun as => ?_) _ _)
  rw [List.filter_map]
  simp only [Function.comp_def, hF.site]

end ClassEntry

namespace Index

/-- The index in a view: the same classes and kinds in the same order. -/
def view (F : Annotation → Annotation) (ix : Index) : Index :=
  ⟨ix.classes.mapValues (ClassEntry.view F)⟩

theorem view_id (ix : Index) : ix.view id = ix := by
  have hentry : ClassEntry.view id = id := by
    funext e
    rw [ClassEntry.view, List.map_id_fun, Dict.mapValues_id]
    rfl
  rw [view, hentry, Dict.mapValues_id]

theorem entry?_view (ix : Index) (c : String) :
    Index.entry? (ix.view F) c = (ix.entry? c).map (ClassEntry.view F) :=
  Dict.get?_mapValues _ _ _

theorem ofKind_view (ix : Index) (c : String) (k : Kind) :
    (ix.view F).ofKind c k = (ix.ofKind c k).map F := by
  rw [ofKind_eq, ofKind_eq, entry?_view]
  cases ix.entry? c with
  | none => rfl
  | some e => exact e.ofKind_view k

theorem onSite_view (hF : Annotation.View F) (ix : Index) (c : String) (k : Kind) (site : Site) :
    (ix.view F).onSite c k site = (ix.onSite c k site).map F := by
  rw [onSite, ofKind_view, onSite, List.filter_map]
  simp only [Function.comp_def, hF.site]

theorem access?_view (hF : Annotation.View F) (ix : Index) (c : String) :
    (ix.view F).access? c = ix.access? c := by
  rw [access?, onSite_view hF, List.findSome?_map, access?]
  simp only [Function.comp_def, hF.value]

theorem view_enter (ix : Index) (c : String) : (ix.enter c).view F = (ix.view F).enter c := by
  unfold enter
  rw [entry?_view]
  cases ix.entry? c with
  | none => exact congrArg Index.mk (Dict.mapValues_put _ _ _ _)
  | some e => rfl

theorem view_markComplete (ix : Index) (c : String) :
    (ix.markComplete c).view F = (ix.view F).markComplete c := by
  unfold markComplete
  rw [entry?_view]
  refine congrArg Index.mk ((Dict.mapValues_put _ _ _ _).trans ?_)
  cases ix.entry? c <;> rfl

theorem view_removeAt (hF : Annotation.View F) (ix : Index) (site : Site) (k : Kind) :
    (ix.removeAt site k).view F = (ix.view F).removeAt site k :=
  congrArg Index.mk (Dict.mapValues_modify (fun e => ClassEntry.view_removeAt hF e site k) _ _)

theorem view_push (hF : Annotation.View F) (ix : Index) (a : Annotation) :
    (ix.push a).view F = (ix.view F).push (F a) := by
  unfold push
  rw [hF.site]
  cases a.site with
  | none => rfl
  | some site =>
    refine congrArg Index.mk ((Dict.mapValues_put _ _ _ _).trans ?_)
    rw [ClassEntry.view_push hF, entry?_view]
    cases ix.entry? site.className <;> rfl

/-- A write shows in a view as a write of what the view shows of the annotation. -/
theorem view_write (hF : Annotation.View F) (ix : Index) (a : Annotation) :
    (ix.write a).view F = (ix.view F).write (F a) := by
  have hremove : ∀ (ks : List Kind) (site : Site) (ix : Index),
      (ks.foldl (fun ix k => ix.removeAt site k) ix).view F =
        ks.foldl (fun ix k => ix.removeAt site k) (ix.view F) := by
    intro ks site
    induction ks with
    | nil => exact fun ix => rfl
    | cons k ks ih => exact fun ix => (ih _).trans (by rw [view_removeAt hF]; rfl)
  unfold write replace
  rw [hF.site, hF.kind]
  cases a.site with
  | none => rfl
  | some site => exact (view_push hF _ a).trans (by rw [hremove])

/-- **What writes leave, in a view.** -/
theorem view_writeAll (hF : Annotation.View F) (ix : Index) (as : List Annotation) :
    (ix.writeAll as).view F = (ix.view F).writeAll (as.map F) := by
  induction as generalizing ix with
  | nil => rfl
  | cons a as ih => rw [writeAll_cons, ih, view_write hF, List.map_cons, writeAll_cons]

end Index

end MappingMetadata
