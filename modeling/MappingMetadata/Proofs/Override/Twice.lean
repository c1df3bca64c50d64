import MappingMetadata.Proofs.Annotation.Entries
import MappingMetadata.Proofs.Override.Exact
import MappingMetadata.Proofs.Override.Names

/-!
# Merging twice

A document may come after another one that has declared overrides for the same site. Then the
overrides of the first are merged, written, read back from their annotation, and merged again.

**Theorem (`merged_twice`).** This yields what one merge yields that declares everything at once:
the overrides of the second document, followed by those of the first that the second does not name.

Two things make it so. Read back from its annotation, a declared override gives the same annotation
again (`annotation_settled`), since the kept fields are all its fields beside the name, in their
order. And collapsing repeated names goes together with leaving names out (`collapse_append`), so
that it makes no difference whether the names of the second document are passed over before or
after the first list was collapsed.
-/

namespace MappingMetadata.Override

open Annotation (ofItems ofItems_congr)

variable {f : Family}

/-! ## Overrides read back -/

namespace Item

/-- Of a declared override, all that is stated beside its name is kept. -/
theorem kept_annotation_declared (o : f.Declared) (d : Defaults) (site : Option Site) :
    kept f (Item.annotation (declared o : Item f) d site) =
      Entry.stated ((declared o : Item f).entries d).tail := by
  have hnodup := nodup_keys_entries (i := (declared o : Item f)) (Or.inl rfl) d
  have hfields : f.carriedFields = Assoc.keys ((declared o : Item f).entries d).tail := by
    cases f <;> rfl
  unfold kept Entry.stated
  rw [hfields, Assoc.keys, List.filterMap_map]
  refine List.filterMap_congr fun p hp => ?_
  have hget := Assoc.get?_eq_some_of_mem hnodup (List.mem_of_mem_tail hp)
  rw [Function.comp_apply, annotation_eq, Annotation.field?_ofEntries hnodup, hget]
  rfl

/-- A declared override looks the same when it is carried over. -/
theorem annotation_settled (o : f.Declared) (d : Defaults) (site : Option Site) :
    annotation ((declared o : Item f).settled d) d site =
      annotation (declared o : Item f) d site := by
  have hentries : (declared o : Item f).entries d =
      ("name", .string (some (f.name o))) :: ((declared o : Item f).entries d).tail := by
    cases f <;> rfl
  have hstated : ∀ fields : Attributes,
      Entry.stated (fields.map fun p => (p.1, Entry.carried (some p.2))) = fields := by
    intro fields
    rw [Entry.stated, List.filterMap_map]
    exact List.filterMap_some
  rw [annotation_eq (declared o), hentries]
  refine Annotation.ofEntries_congr ?_
  rw [Entry.stated_cons, Entry.stated_cons, hstated, kept_annotation_declared]
  rfl

end Item

/-! ## Collapsing -/

/-- Collapsing two lists one after the other, the second without the names of the first. -/
theorem collapse_append (os os' : List f.Declared) :
    collapse f (os ++ os'.filter fun o => f.name o ∉ os.map f.name) =
      collapse f os ++ (collapse f os').filter fun o => f.name o ∉ os.map f.name := by
  let pairs := fun os : List f.Declared => os.map fun o => (f.name o, o)
  let other := fun n : String => decide (n ∉ os.map f.name)
  have hfilter : pairs (os'.filter fun o => other (f.name o)) =
      (pairs os').filter fun p => other p.1 := by
    rw [List.filter_map]
    rfl
  have hdisjoint : ∀ n ∈ Assoc.keys ((pairs os').filter fun p => other p.1),
      n ∉ Assoc.keys (pairs os) := by
    intro n hn
    obtain ⟨p, hp, rfl⟩ := List.mem_map.1 hn
    have hother : other p.1 := (List.mem_filter.1 hp).2
    rw [Assoc.keys, List.map_map]
    exact of_decide_eq_true hother
  have hname : ∀ p ∈ Assoc.ofList (pairs os'), other (f.name p.2) = other p.1 := by
    intro p hp
    obtain ⟨o, -, rfl⟩ := List.mem_map.1 (Assoc.mem_of_mem_ofList hp)
    rfl
  change (Assoc.ofList (pairs (os ++ os'.filter fun o => other (f.name o)))).map Prod.snd =
    (Assoc.ofList (pairs os)).map Prod.snd ++
      ((Assoc.ofList (pairs os')).map Prod.snd).filter fun o => other (f.name o)
  rw [show pairs (os ++ os'.filter fun o => other (f.name o)) = _ from List.map_append,
    show (os'.filter fun o => other (f.name o)).map _ = _ from hfilter,
    Assoc.ofList_append hdisjoint, Assoc.ofList_filter, List.map_append, List.filter_map]
  exact congrArg (_ ++ List.map _ ·) (List.filter_congr hname).symm

/-- Among items with different names, the fresh ones are those whose names are not taken. -/
theorem fresh_of_nodup {is : List (Item f)} (h : (is.map Item.name).Nodup) (names : List String) :
    fresh names is = is.filter fun i => i.name ∉ names := by
  induction is generalizing names with
  | nil => rfl
  | cons i is ih =>
    rw [List.map_cons, List.nodup_cons] at h
    rw [fresh]
    by_cases hi : i.name ∈ names
    · rw [if_pos hi, ih h.2, List.filter_cons_of_neg (by simpa using hi)]
    · have hrest : ∀ j ∈ is, (decide (j.name ∉ i.name :: names)) = decide (j.name ∉ names) := by
        intro j hj
        have hne : j.name ≠ i.name := fun e => h.1 (e ▸ List.mem_map_of_mem hj)
        simp [hne]
      rw [if_neg hi, ih h.2, List.filter_cons_of_pos (by simpa using hi),
        List.filter_congr hrest]

/-! ## Merging -/

theorem mergedAnnotation_of_carried {ix : Index} {d : Defaults} {dedupe : Bool}
    {declared : List f.Declared} {site : Site} {held : List (Item f)} (hne : declared ≠ [])
    (hnames : ∀ o ∈ declared, ¬ Text.isBlank (f.name o))
    (hheld : (indexed ix f site).mapM Item.carry = .ok held) :
    mergedAnnotation f ix d dedupe declared (some site) =
      .ok (ofItems f.wrapper (fun i site => i.annotation d site) (some site)
        (mergedItems dedupe declared held)) := by
  have hmerge : merge f ix dedupe declared (some site) =
      .ok (some ⟨site, mergedItems dedupe declared held⟩) :=
    merge_eq_ok_iff.2 (Or.inr ⟨hne, hnames, held, hheld, rfl⟩)
  rw [Override.mergedAnnotation, hmerge]
  rfl

/-- What a second list leaves of the overrides that a first one declared, when they are found
again. -/
theorem fresh_settled (d : Defaults) (first : List f.Declared) (names : List String) :
    fresh names ((collapse f first).map fun o => (Item.declared o).settled d) =
      ((collapse f first).filter fun o => f.name o ∉ names).map
        fun o => (Item.declared o).settled d := by
  have hnodup : (((collapse f first).map fun o => (Item.declared o).settled d).map
      Item.name).Nodup := by
    rw [names_settled]
    exact nodup_collapse first
  rw [fresh_of_nodup hnodup, List.filter_map]
  refine congrArg _ (List.filter_congr fun o _ => ?_)
  rw [Function.comp_apply, Item.name_settled]
  rfl

/-- The overrides of two lists merged at once, the second list without the names of the first. -/
theorem mergedItems_append (first second : List f.Declared) (held : List (Item f)) :
    mergedItems true (second ++ first.filter fun o => f.name o ∉ second.map f.name) held =
      (collapse f second).map .declared ++
        (((collapse f first).filter fun o => f.name o ∉ second.map f.name).map .declared ++
          fresh (taken f true first ++ taken f true second) held) := by
  have htaking : taking f true (second ++ first.filter fun o => f.name o ∉ second.map f.name) =
      collapse f second ++ (collapse f first).filter fun o => f.name o ∉ second.map f.name :=
    collapse_append second first
  have htaken : ∀ n,
      n ∈ taken f true (second ++ first.filter fun o => f.name o ∉ second.map f.name) ↔
        n ∈ taken f true first ++ taken f true second := by
    intro n
    rw [List.mem_append, mem_taken_iff, mem_taken_iff, mem_taken_iff, List.map_append,
      List.mem_append]
    simp only [List.mem_map, List.mem_filter, decide_eq_true_eq]
    grind
  rw [mergedItems, fresh_congr htaken, htaking, List.map_append, List.append_assoc]

/-- Item by item, the second of two merges yields the annotations of one merge of both lists. -/
theorem mergedItems_twice (d : Defaults) {first : List f.Declared} (hfirst : first ≠ [])
    (second : List f.Declared) (held : List (Item f)) :
    List.Forall₂ (fun i j => ∀ site, i.annotation d site = j.annotation d site)
      (mergedItems true second (mergeInto d true first held))
      (mergedItems true (second ++ first.filter fun o => f.name o ∉ second.map f.name) held) := by
  have hleft : ((collapse f first).filter fun o => f.name o ∉ taken f true second) =
      (collapse f first).filter fun o => f.name o ∉ second.map f.name :=
    List.filter_congr fun o _ => by simp only [mem_taken_iff]
  have htwice : mergedItems true second (mergeInto d true first held) =
      (collapse f second).map .declared ++
        (((collapse f first).filter fun o => f.name o ∉ second.map f.name).map
          (fun o => (Item.declared o).settled d) ++
            fresh (taken f true first ++ taken f true second) held) := by
    rw [mergedItems, fresh_mergeInto, if_neg (by simpa using hfirst), ← hleft]
    exact congrArg (_ ++ ·) (congrArg (· ++ _) (fresh_settled d first _))
  rw [htwice, mergedItems_append]
  refine List.rel_append (List.forall₂_same.2 fun _ _ _ => rfl) (List.rel_append ?_
    (List.forall₂_same.2 fun _ _ _ => rfl))
  rw [List.forall₂_map_left_iff, List.forall₂_map_right_iff, List.forall₂_same]
  exact fun o _ site => Item.annotation_settled o d site

/-- **Merging twice is merging once.** The annotation of a second merge is that of one merge of the
second list followed by what it leaves of the first. Each declared override that is carried over
from its annotation gives the same annotation again. -/
theorem merged_twice {ix : Index} (d : Defaults) {first second : List f.Declared} {site : Site}
    (hfirst : first ≠ []) (hsecond : second ≠ [])
    (hfirstNames : ∀ o ∈ first, ¬ Text.isBlank (f.name o))
    (hsecondNames : ∀ o ∈ second, ¬ Text.isBlank (f.name o))
    (hindexed : ∀ a ∈ indexed ix f site, ∃ n, a.name? = some n ∧ n ≠ "") :
    ∃ a b, mergedAnnotation f ix d true first (some site) = .ok (some a) ∧
      mergedAnnotation f (ix.replace a f.kinds) d true second (some site) = .ok (some b) ∧
      mergedAnnotation f ix d true
        (second ++ first.filter fun o => f.name o ∉ second.map f.name) (some site) =
          .ok (some b) ∧
      ∀ o ∈ first, ∀ from?, ∃ i : Item f, Item.carry (f.annotation o d from?) = .ok i ∧
        ∀ to?, i.annotation d to? = f.annotation o d to? := by
  obtain ⟨held, hcarried⟩ := exists_mapM_carry (f := f) fun a ha => by
    obtain ⟨n, hn, -⟩ := hindexed a ha
    rw [hn]
    exact Option.some_ne_none n
  have hheld : Held ix f site held := held_of_carried hcarried fun a ha he => by
    obtain ⟨n, hn, hne⟩ := hindexed a ha
    exact hne (Option.some.inj (hn.symm.trans he))
  let ctx : Context := { defaults := d, classPath := .everything }
  have hitems : mergedItems ctx.dedupe first held ≠ [] := mergedItems_ne_nil hfirst held
  obtain ⟨a, ha⟩ := exists_ofItems hitems ctx.defaults (some site)
  have hwritten : Held (ix.replace a f.kinds) f site (mergeInto d true first held) := by
    refine (hheld.write hfirst hfirstNames ha ix).congr ?_
    rw [indexed_replace_of_occupies ix (occupies_of_ofItems ha),
      indexed_write_of_occupies ix (occupies_of_ofItems ha)]
  have hitems' : mergedItems true second (mergeInto d true first held) ≠ [] :=
    mergedItems_ne_nil hsecond _
  obtain ⟨b, hb⟩ := exists_ofItems hitems' d (some site)
  have hboth : second ++ first.filter (fun o => f.name o ∉ second.map f.name) ≠ [] :=
    List.append_ne_nil_of_left_ne_nil hsecond _
  have hbothNames : ∀ o ∈ second ++ first.filter (fun o => f.name o ∉ second.map f.name),
      ¬ Text.isBlank (f.name o) := by
    rw [List.forall_mem_append]
    exact ⟨hsecondNames, fun o ho => hfirstNames o (List.mem_of_mem_filter ho)⟩
  refine ⟨a, b, ?_, ?_, ?_, fun o ho from? => ?_⟩
  · exact (mergedAnnotation_of_carried hfirst hfirstNames hcarried).trans (congrArg Except.ok ha)
  · rw [mergedAnnotation_of_carried hsecond hsecondNames hwritten.carried, hb]
  · rw [mergedAnnotation_of_carried hboth hbothNames hcarried, ← hb]
    exact congrArg Except.ok
      (ofItems_congr (mergedItems_twice d hfirst second held) _).symm
  · have hname : (Item.declared o : Item f).name ≠ "" := fun he => hfirstNames o ho (by
      rw [show f.name o = "" from he]
      exact Text.isBlank_empty)
    exact ⟨_, Item.carry_annotation (i := .declared o) (Or.inl rfl) hname d from?,
      fun to? => Item.annotation_settled o d to?⟩

/-- The first list names an override twice, and one of the second list; two others are held. -/
theorem merged_twice_shared_name :
    let site : Site := .onMethod "Order" "getItems"
    let d : Defaults := { schema := some "SALES" }
    let held : Declaration.AssociationOverride := { name := "owner", joinColumns := [.named "O"] }
    let held' : Declaration.AssociationOverride := { name := "parts", joinTable := some {} }
    let ix : Index := .ofList [held.annotation {} (some site), held'.annotation {} (some site)]
    let parts₁ : Declaration.AssociationOverride := { name := "parts", joinColumns := [.named "P"] }
    let parts₂ : Declaration.AssociationOverride := { name := "parts", joinTable := some {} }
    let buyer₁ : Declaration.AssociationOverride := { name := "buyer", joinColumns := [.named "B"] }
    let buyer₂ : Declaration.AssociationOverride := { name := "buyer" }
    ∃ a b,
      mergedAnnotation .associations ix d true [parts₁, buyer₁, parts₂] (some site) =
        .ok (some a) ∧
      mergedAnnotation .associations (ix.replace a [.associationOverride, .associationOverrides]) d
        true [buyer₂] (some site) = .ok (some b) ∧
      mergedAnnotation .associations ix d true [buyer₂, parts₁, parts₂] (some site) =
        .ok (some b) := by
  intro site d held held' ix parts₁ parts₂ buyer₁ buyer₂
  let first : List (Family.Declared .associations) := [parts₁, buyer₁, parts₂]
  have hfirst : ∀ o ∈ first, ¬ Text.isBlank (Family.name .associations o) := by decide +kernel
  have hsecond : ∀ o ∈ [buyer₂], ¬ Text.isBlank (Family.name .associations o) := by
    decide +kernel
  have hnames : (indexed ix .associations site).map Annotation.name? =
      [some "owner", some "parts"] := by decide +kernel
  have hindexed : ∀ a ∈ indexed ix .associations site, ∃ n, a.name? = some n ∧ n ≠ "" := by
    intro a ha
    have hname := List.mem_map_of_mem (f := Annotation.name?) ha
    rw [hnames] at hname
    rcases List.mem_pair.1 hname with h | h
    · exact ⟨"owner", h, by decide⟩
    · exact ⟨"parts", h, by decide⟩
  obtain ⟨a, b, ha, hb, hboth, -⟩ := merged_twice d (List.cons_ne_nil _ _) (List.cons_ne_nil _ _)
    hfirst hsecond hindexed
  exact ⟨a, b, ha, hb, hboth⟩

end MappingMetadata.Override
