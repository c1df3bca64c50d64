import MappingMetadata.Proofs.Alike
import MappingMetadata.Proofs.Annotation.Entries
import MappingMetadata.Proofs.Index.Viewing
import MappingMetadata.Proofs.Override.Holding

/-!
# Merging overrides that look alike

What merging does with overrides depends on their names only; all else in them goes into the merged
annotation as it is. So two merges go alike, up to a view, when the declared overrides agree in
their names and look alike one by one, and so do the indexes (`overrides_alike`). The defaults that
the two merges go by may differ.
-/

namespace MappingMetadata

theorem Assoc.forall₂_put {κ ν μ : Type} [DecidableEq κ] {R : ν → μ → Prop}
    {m : List (κ × ν)} {m' : List (κ × μ)}
    (h : List.Forall₂ (fun p q => p.1 = q.1 ∧ R p.2 q.2) m m') {k : κ} {v : ν} {v' : μ}
    (hv : R v v') : List.Forall₂ (fun p q => p.1 = q.1 ∧ R p.2 q.2) (put m k v) (put m' k v') := by
  induction h with
  | nil => exact .cons ⟨rfl, hv⟩ .nil
  | @cons p q m m' hpq hm ih =>
    obtain ⟨hkey, hval⟩ := hpq
    by_cases hk : q.1 = k
    · rw [put, put, if_pos (hkey.trans hk), if_pos hk]
      exact .cons ⟨hkey, hv⟩ hm
    · rw [put, put, if_neg (hkey ▸ hk), if_neg hk]
      exact .cons ⟨hkey, hval⟩ ih

namespace Override

variable {f : Family} {F : Annotation → Annotation}

/-- Overrides of one name whose annotations look alike on every site. -/
structure Item.Alike (F : Annotation → Annotation) (d d' : Defaults) (i j : Item f) : Prop where
  name : i.name = j.name
  annotation : ∀ site, F (i.annotation d site) = F (j.annotation d' site)

theorem Item.alike_refl (d : Defaults) (i : Item f) : i.Alike F d d i := ⟨rfl, fun _ => rfl⟩

/-! ## Lists of overrides -/

theorem forall₂_fresh {R : Item f → Item f → Prop} (hR : ∀ i j, R i j → i.name = j.name)
    {is js : List (Item f)} (h : List.Forall₂ R is js) (taken : List String) :
    List.Forall₂ R (fresh taken is) (fresh taken js) := by
  induction h generalizing taken with
  | nil => exact .nil
  | @cons i j is js hij _ ih =>
    rw [fresh, fresh, hR i j hij]
    by_cases hj : j.name ∈ taken
    · rw [if_pos hj, if_pos hj]
      exact ih taken
    · rw [if_neg hj, if_neg hj]
      exact .cons hij (ih _)

theorem forall₂_collapse {R : f.Declared → f.Declared → Prop}
    (hR : ∀ o o', R o o' → f.name o = f.name o') {os os' : List f.Declared}
    (h : List.Forall₂ R os os') : List.Forall₂ R (collapse f os) (collapse f os') := by
  suffices hfold : ∀ m m' : List (String × f.Declared),
      List.Forall₂ (fun p q => p.1 = q.1 ∧ R p.2 q.2) m m' →
      List.Forall₂ (fun p q => p.1 = q.1 ∧ R p.2 q.2)
        ((os.map fun o => (f.name o, o)).foldl (fun m p => Assoc.put m p.1 p.2) m)
        ((os'.map fun o => (f.name o, o)).foldl (fun m p => Assoc.put m p.1 p.2) m') by
    refine List.forall₂_map_left_iff.2 (List.forall₂_map_right_iff.2 ?_)
    exact (hfold [] [] .nil).imp fun _ _ hpq => hpq.2
  induction h with
  | nil => exact fun m m' hm => hm
  | @cons o o' os os' ho _ ih =>
    intro m m' hm
    rw [List.map_cons, List.map_cons, List.foldl_cons, List.foldl_cons, hR o o' ho]
    exact ih _ _ (Assoc.forall₂_put hm ho)

theorem forall₂_taking {R : f.Declared → f.Declared → Prop}
    (hR : ∀ o o', R o o' → f.name o = f.name o') {os os' : List f.Declared}
    (h : List.Forall₂ R os os') (dedupe : Bool) :
    List.Forall₂ R (taking f dedupe os) (taking f dedupe os') := by
  cases dedupe with
  | false => exact h
  | true => exact forall₂_collapse hR h

/-! ## Merging -/

variable {ctx ctx' : Context}

/-- Declared overrides of one name whose annotations look alike. -/
def DeclaredAlike (F : Annotation → Annotation) (d d' : Defaults) (o o' : f.Declared) : Prop :=
  Item.Alike F d d' (.declared o : Item f) (.declared o')

/-- Annotations that look the same are carried over alike, or neither can be. -/
def Carries (F : Annotation → Annotation) (d d' : Defaults) : Prop :=
  ∀ (f : Family) (a b : Annotation), F a = F b →
    Outcome.Alike (Item.Alike F d d') (Item.carry a : Outcome (Item f)) (Item.carry b)

theorem carries_id (d : Defaults) : Carries id d d := by
  intro f a b hab
  rw [show a = b from hab]
  exact Outcome.alike_refl (fun i => i.alike_refl d) _

theorem map_indexed_eq (hF : Annotation.View F) {ix ix' : Index} (h : ix.view F = ix'.view F)
    (f : Family) (site : Site) :
    (indexed ix f site).map F = (indexed ix' f site).map F := by
  have honSite : ∀ k, (ix.onSite site.className k site).map F =
      (ix'.onSite site.className k site).map F := by
    intro k
    rw [← Index.onSite_view hF, h, Index.onSite_view hF]
  have hwrapped : ∀ as bs : List Annotation, as.map F = bs.map F →
      ((as.head?.map Annotation.members).getD []).map F =
        ((bs.head?.map Annotation.members).getD []).map F
    | [], [], _ => rfl
    | a :: _, b :: _, hab => hF.members a b (List.cons.inj hab).1
  rw [indexed_eq, indexed_eq, List.map_append, List.map_append, honSite, hwrapped _ _ (honSite _)]

/-- Indexes that look alike hold overrides that do, or one that cannot be carried over. -/
theorem held_alike (hF : Annotation.View F) {d d' : Defaults} (hcarries : Carries F d d')
    {ix ix' : Index} (h : ix.view F = ix'.view F) (f : Family) (site : Site) :
    Outcome.Alike (List.Forall₂ (Item.Alike F d d'))
      ((indexed ix f site).mapM (Item.carry : Annotation → Outcome (Item f)))
      ((indexed ix' f site).mapM Item.carry) := by
  have hforall : List.Forall₂ (fun a b => F a = F b) (indexed ix f site) (indexed ix' f site) := by
    have heq := map_indexed_eq hF h f site
    rwa [← List.forall₂_eq_eq_eq, List.forall₂_map_left_iff, List.forall₂_map_right_iff] at heq
  exact .mapM hforall (hcarries f)

/-- The merged annotations of overrides look alike when the overrides do. -/
theorem map_annotation_eq (hF : Annotation.View F) {d d' : Defaults} {site : Site}
    {is js : List (Item f)} (h : List.Forall₂ (Item.Alike F d d') is js) :
    (Merged.annotation ⟨site, is⟩ d).map F = (Merged.annotation ⟨site, js⟩ d').map F := by
  have hview : ∀ (d : Defaults) (is : List (Item f)),
      (Merged.annotation ⟨site, is⟩ d).map F =
        Annotation.ofItems f.wrapper (fun i site => F (i.annotation d site)) (some site) is := by
    intro d items
    match items with
    | [] => rfl
    | [i] => rfl
    | i :: j :: rest =>
      refine congrArg some ((hF.wrapper f _ _ ?_).trans ?_)
      · exact List.forall_mem_map.2 fun k _ => k.kind_annotation d none
      · rw [List.map_map]
        rfl
  rw [hview, hview]
  exact Annotation.ofItems_congr (h.imp fun _ _ hij => hij.annotation) _

theorem mergedAnnotation_some (ix : Index) (d : Defaults) (dedupe : Bool)
    (declared : List f.Declared) (site : Site) :
    mergedAnnotation f ix d dedupe declared (some site) =
      if declared.isEmpty then .ok none
      else if declared.any fun o => Text.isBlank (f.name o) then .error (.missingName f.scalar)
      else (indexed ix f site).mapM Item.carry >>= fun carried =>
        .ok (Merged.annotation ⟨site, (taking f dedupe declared).map .declared ++
          fresh ((taking f dedupe declared).map f.name) carried⟩ d) := by
  rw [Override.mergedAnnotation, merge_some]
  split
  · rfl
  · split
    · rfl
    · cases (indexed ix f site).mapM Item.carry <;> rfl

/-- **Merges of overrides that look alike go alike.** -/
theorem overrides_alike (hF : Annotation.View F) (hdedupe : ctx.dedupe = ctx'.dedupe)
    {declared declared' : List f.Declared}
    (hdeclared : List.Forall₂ (DeclaredAlike F ctx.defaults ctx'.defaults) declared declared')
    (hcarries : Carries F ctx.defaults ctx'.defaults) {ix ix' : Index}
    (hix : ix.view F = ix'.view F) (site : Site) :
    Outcome.Alike (fun as bs => as.map F = bs.map F) (ctx.overrides ix f declared site)
      (ctx'.overrides ix' f declared' site) := by
  have hname : ∀ o o' : f.Declared,
      DeclaredAlike F ctx.defaults ctx'.defaults o o' → f.name o = f.name o' :=
    fun o o' h => h.name
  have htaking := forall₂_taking hname hdeclared ctx.dedupe
  have hempty : declared.isEmpty = declared'.isEmpty := by
    cases hdeclared <;> rfl
  have hblank : (declared.any fun o => Text.isBlank (f.name o)) =
      declared'.any fun o => Text.isBlank (f.name o) := by
    have hany : ∀ os : List f.Declared,
        (os.any fun o => Text.isBlank (f.name o)) = (os.map f.name).any Text.isBlank := by
      intro os
      rw [List.any_map]
      rfl
    rw [hany, hany, map_congr_of_forall₂ (hdeclared.imp hname)]
  have hmerged : Outcome.Alike (fun m n : Option Annotation => m.map F = n.map F)
      (Override.mergedAnnotation f ix ctx.defaults ctx.dedupe declared (some site))
      (Override.mergedAnnotation f ix' ctx'.defaults ctx'.dedupe declared' (some site)) := by
    rw [mergedAnnotation_some, mergedAnnotation_some, hempty, hblank, ← hdedupe]
    split
    · exact .ok rfl
    · split
      · exact .error _
      · refine (held_alike hF hcarries hix f site).bind fun is js hij => ?_
        refine .ok (map_annotation_eq hF ?_)
        rw [map_congr_of_forall₂ (htaking.imp hname)]
        refine List.rel_append ?_ (forall₂_fresh (fun _ _ h => h.name) hij _)
        exact List.forall₂_map_left_iff.2 (List.forall₂_map_right_iff.2 htaking)
  refine hmerged.map fun m n hmn => ?_
  rw [← Option.toList_map, hmn, Option.toList_map]

end Override

end MappingMetadata
