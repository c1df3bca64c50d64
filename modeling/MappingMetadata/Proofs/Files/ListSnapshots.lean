import MappingMetadata.Proofs.Codec.Annotations
import MappingMetadata.Proofs.Codec.Steadiness
import MappingMetadata.Proofs.Files.Loading
import MappingMetadata.Proofs.Files.Saving
import MappingMetadata.Proofs.Index.Arranging

/-!
# Snapshots that are lists

A snapshot of an index may be a list of annotations. It is read item by item, and each item by
itself (`Index.element?`), as reading one changes nothing for the next.

**Theorem (`Index.loadIndex_list`).** A list of annotations is loaded as the index of these
annotations. A list with an item that is no annotation, such as one without a kind, is rejected,
with one exception: when this item stands alone and can be read as a map of classes, it is taken
for the one member of an index.

The exception is there because a record may be written as the list of its members, and an index is
a record with one member. As unknown keys are ignored, almost every map of maps is a map of classes
(`Index.kindless_item_is_loaded`).
-/

namespace MappingMetadata

open Reading

/-! ## Going through a list -/

section MapM

variable {α β γ : Type}

/-- Going through a list a second time is going through it once. -/
theorem mapM_bind_mapM (f : α → Option β) (g : β → Option γ) (as : List α) :
    ((as.mapM f).bind fun bs => bs.mapM g) = as.mapM fun a => (f a).bind g := by
  induction as with
  | nil => rfl
  | cons a as ih =>
    rw [List.mapM_cons, List.mapM_cons, ← ih]
    cases f a with
    | none => rfl
    | some b => cases as.mapM f <;> cases h : g b <;> simp [h]

/-- The item of a list that has no other. -/
def only? : List α → Option α
  | [a] => some a
  | _ => none

theorem mapM_bind_only? (f : α → Option β) (as : List α) :
    (as.mapM f).bind only? = (only? as).bind f := by
  match as with
  | [] => rfl
  | [a] => cases h : f a <;> simp [h, only?]
  | a :: a' :: as =>
    rw [List.mapM_cons, List.mapM_cons]
    cases f a <;> cases f a' <;> cases as.mapM f <;> rfl

end MapM

/-! ## Reading a list -/

namespace Index

variable {α : Type}

/-- What an item of a list is read as within a depth budget: it is settled and kept. -/
def item? (r : Reader α) (d : Nat) (item : Tree) : Option α :=
  ((settle d item).value? .text).bind fun t => (r d t).value? .kept

/-- One level of the budget goes to the list, and the items are read one by one. -/
theorem value?_list {r : Reader α} (h : r.Steady) (d : Nat) (ts : List Tree) :
    (Reader.list r (d + 1) (.list ts)).value? .kept = ts.mapM fun t => (r d t).value? .kept :=
  Steady.value?_mapM (fun t _ => h d t) .kept

theorem readAll_members (d : Nat) (t : Tree) (ts : List Tree) :
    members.readAll d (t :: ts) = (do
      let classes ← ClassEntry.dictCodec.read d t
      if ts.isEmpty then return ⟨classes⟩ else failure) := by
  simp only [members, Fields.required, Fields.iso, Fields.readAll, Fields.member, Fields.done,
    bind_assoc, pure_bind]

/-- An index has one member, so the list of its members has one item. -/
theorem value?_members (d : Nat) (ts : List Tree) :
    (codec.read (d + 1) (.list ts)).value? .kept =
      ((only? ts).bind fun t => (ClassEntry.dictCodec.read d t).value? .kept).map Index.mk := by
  have hread : codec.read (d + 1) (.list ts) = members.readAll d ts := rfl
  rw [hread]
  match ts with
  | [] => rfl
  | [t] =>
    rw [readAll_members]
    exact value?_map _ _ _
  | t :: t' :: ts =>
    rw [readAll_members, (ClassEntry.steady_dictCodec d t).value?_bind]
    exact Option.bind_fun_none _

theorem value?_settle_list (d : Nat) (items : List Tree) :
    (settle (d + 1) (.list items)).value? .text =
      (items.mapM fun t => (settle d t).value? .text).map .list := by
  have hsettle : settle (d + 1) (.list items) = (do return .list (← items.mapM (settle d))) := rfl
  rw [hsettle, value?_map, Steady.value?_mapM fun t _ => steady_settle d t]

/-- A list is read as annotations; failing that, as the members of an index. -/
theorem value?_readSnapshot (d : Nat) (items : List Tree) :
    (readSnapshot (d + 1) (.list items)).value? .text =
      ((items.mapM (item? Annotation.codec.read d)).map ofList <|>
        ((only? items).bind (item? ClassEntry.dictCodec.read d)).map Index.mk) := by
  let settled : Option (List Tree) := items.mapM fun t => (settle d t).value? .text
  have helements : items.mapM (item? Annotation.codec.read d) =
      settled.bind fun ts => ts.mapM fun t => Annotation.codec.read d t |>.value? .kept :=
    (mapM_bind_mapM _ _ items).symm
  have hmember : (only? items).bind (item? ClassEntry.dictCodec.read d) =
      (settled.bind only?).bind fun t => (ClassEntry.dictCodec.read d t).value? .kept := by
    rw [mapM_bind_only?, Option.bind_assoc]
    rfl
  have hread : (readSnapshot (d + 1) (.list items)).value? .text = settled.bind fun ts =>
      ((ts.mapM fun t => Annotation.codec.read d t |>.value? .kept).map ofList <|>
        ((only? ts).bind fun t => (ClassEntry.dictCodec.read d t).value? .kept).map Index.mk) := by
    unfold readSnapshot
    rw [(steady_settle _ _).value?_bind, value?_settle_list, Option.bind_map]
    refine Option.bind_congr fun ts _ => ?_
    rw [Function.comp_apply, value?_fromKept, value?_orElse, value?_map,
      value?_list Annotation.steady, value?_members]
  rw [hread, helements, hmember]
  cases settled <;> rfl

/-- An item of a list in a JSON text, as an annotation. The list takes one level of the budget. -/
def element? : Tree → Option Annotation := item? Annotation.codec.read (Json.maxDepth - 1)

/-- An item of a list in a JSON text, as a map of classes. -/
def classes? : Tree → Option (Dict String ClassEntry) :=
  item? ClassEntry.dictCodec.read (Json.maxDepth - 1)

/-- A written annotation is read back as an item. -/
theorem element?_ofData {a : Annotation} (ha : a.Distinct)
    (hdepth : a.toData.depth ≤ Json.maxDepth - 1) : element? (Tree.ofData a.toData) = some a := by
  rw [element?, item?, (yields_settle hdepth).value?]
  have hread := Annotation.readsBack ha _ hdepth
  exact hread.value? .kept

end Index

/-! ## An item without a kind -/

/-- The keys of the map are texts, and the given one is not among them. -/
def Tree.Without (key : String) (entries : List (Tree × Tree)) : Prop :=
  ∀ p ∈ entries, ∃ k, p.1 = .text k ∧ k ≠ key

namespace Reading

theorem settle_text (d : Nat) (s : String) : (settle d (.text s)).Gives (· = .text s) := by
  cases d <;> exact gives_pure rfl

/-- Settling a map leaves its keys as they are. -/
theorem settle_without {key : String} {entries : List (Tree × Tree)}
    (h : Tree.Without key entries) (d : Nat) :
    (settle d (.map entries)).Gives fun t => ∃ es, t = .map es ∧ Tree.Without key es := by
  cases d with
  | zero => exact nofun
  | succ d =>
    have hentry (p : Tree × Tree) (hp : p ∈ entries) :
        (do return (← settle d p.1, ← settle d p.2) : Reading (Tree × Tree)).Gives
          fun q => ∃ k, q.1 = .text k ∧ k ≠ key := by
      obtain ⟨k, hk, hne⟩ := h p hp
      rw [hk]
      refine (settle_text d k).bind ?_
      rintro _ rfl
      exact Gives.of_bind fun _ => gives_pure ⟨k, rfl, hne⟩
    exact (Gives.mapM hentry).bind fun es hes => gives_pure ⟨es, rfl, hes⟩

/-- A member is not found in a map without it. -/
theorem members_without {key : String} (keys : List String) {entries : List (Tree × Tree)}
    (h : Tree.Without key entries) :
    (members keys entries).Gives fun ms => ms.1.lookup key = none := by
  induction entries with
  | nil => exact gives_pure rfl
  | cons p entries ih =>
    obtain ⟨key', value⟩ := p
    obtain ⟨⟨k, hk, hne⟩, hrest⟩ := List.forall_mem_cons.1 h
    subst hk
    have hname : (memberName keys (.text k)).Gives (· = some k) := gives_pure rfl
    refine hname.bind ?_
    rintro _ rfl
    refine (ih hrest).bind fun ms hms => ?_
    refine .ite (.ite gives_failure (gives_pure ?_)) (gives_pure hms)
    rw [List.lookup_cons, beq_false_of_ne hne.symm]
    exact hms

end Reading

/-- A record is not read from a map without its first member. -/
theorem Codec.record_without {α β : Type} {key : String} {entries : List (Tree × Tree)}
    (h : Tree.Without key entries) (c : Codec α) (rest : Fields β) (d : Nat) :
    ((Codec.record (.required key c rest)).read d (.map entries)).Fails := by
  refine Gives.fails (Gives.enter (fun d => (members_without _ h).bind fun ms hms => ?_) d)
  simp only [Fields.required, Fields.member, hms]
  exact Gives.bind (Q := fun _ => False) gives_failure fun _ h => h.elim

namespace Index

theorem element?_without_kind {entries : List (Tree × Tree)} (h : Tree.Without "kind" entries) :
    element? (.map entries) = none := by
  refine Option.bind_eq_none_iff.2 fun t ht => ?_
  obtain ⟨es, rfl, hes⟩ := (settle_without h _).of_value? ht
  have hread : Annotation.codec.read (Json.maxDepth - 1) (.map es) |>.Fails :=
    (Codec.record_without hes _ _ _).bind _
  exact hread.value? .kept

/-! ## Loading a list -/

section Loading

variable {t : FileTree} {path text : String} {items : List Tree}

theorem run_loadIndex (hpath : Format.ofPath path = .json) (htext : t.read? path = some text)
    (hitems : Json.parse? text = some (.list items)) :
    (FileTree.disk.loadIndex path).run.run t =
      (((items.mapM element?).map ofList <|> ((only? items).bind classes?).map Index.mk).elim
        (.error (.malformed .json)) .ok, t) := by
  have hread : Format.json.read readSnapshot text =
      ((readSnapshot Json.maxDepth (.list items)).value? .text).elim
        (.error (.malformed .json)) .ok := by
    simp only [Format.read, hitems, Option.bind_eq_bind, Option.bind_some, value?]
    cases (readSnapshot Json.maxDepth (.list items)).run {} <;> rfl
  have hloaded : t.loaded readSnapshot path = Format.json.read readSnapshot text := by
    rw [FileTree.loaded, htext, hpath]
  have hsnapshot : (readSnapshot Json.maxDepth (.list items)).value? .text =
      ((items.mapM element?).map ofList <|> ((only? items).bind classes?).map Index.mk) :=
    value?_readSnapshot (Json.maxDepth - 1) items
  refine (FileTree.run_load t readSnapshot path).trans ?_
  rw [hloaded, hread, hsnapshot]

/-- The text of a list of annotations that are not written too deep is a snapshot. -/
theorem json_list_reads_back {as : List Annotation} (hdistinct : ∀ a ∈ as, a.Distinct)
    (hdepth : (Data.list (as.map Annotation.toData)).depth ≤ Json.maxDepth)
    (hpath : Format.ofPath path = .json)
    (htext : t.read? path = some (Format.json.render (.list (as.map Annotation.toData)))) :
    (FileTree.disk.loadIndex path).run.run t = (.ok (ofList as), t) := by
  have hitems : (Tree.ofItems (as.map Annotation.toData)).map element? = as.map some := by
    rw [Tree.ofItems_eq, List.map_map, List.map_map]
    refine List.map_congr_left fun a ha => element?_ofData (hdistinct a ha) ?_
    exact (Data.depth_list_le_iff.1 hdepth) _ (List.mem_map_of_mem ha)
  rw [run_loadIndex hpath htext (Json.parse?_render _), mapM_eq_some_iff.2 hitems]
  rfl

/-- **Lists of annotations are loaded, others are rejected** unless they have a single item, which
is then read as the classes of an index. An item without a kind is no annotation. -/
theorem loadIndex_list (hpath : Format.ofPath path = .json) (htext : t.read? path = some text)
    (hitems : Json.parse? text = some (.list items)) :
    (∀ as, items.map element? = as.map some →
      (FileTree.disk.loadIndex path).run.run t = (.ok (ofList as), t) ∧
        (ofList as).size = (as.filter fun a => a.site.isSome).length) ∧
    (∀ item ∈ items, element? item = none →
      (∀ classes, items = [item] → classes? item = some classes →
        (FileTree.disk.loadIndex path).run.run t = (.ok ⟨classes⟩, t)) ∧
      ((items = [item] → classes? item = none) →
        (FileTree.disk.loadIndex path).run.run t = (.error (.malformed .json), t))) ∧
    ∀ entries, .map entries ∈ items → Tree.Without "kind" entries →
      element? (.map entries) = none := by
  have hrun := run_loadIndex hpath htext hitems
  refine ⟨fun as has => ⟨?_, (arranges_ofList as).toList_perm.length_eq⟩,
    fun item hmem hitem => ?_, fun entries _ hkind => element?_without_kind hkind⟩
  · rw [hrun, mapM_eq_some_iff.2 has]
    rfl
  · have hnone : items.mapM element? = none :=
      mapM_eq_none_iff.2 (hitem ▸ List.mem_map_of_mem hmem)
    rw [hnone] at hrun
    refine ⟨fun classes honly hclasses => ?_, fun hfails => ?_⟩
    · rw [hrun, honly, only?, Option.bind_some, hclasses]
      rfl
    · have honly : (only? items).bind classes? = none := by
        match items, hmem, hfails with
        | [_], hmem, hfails =>
          obtain rfl := List.mem_singleton.1 hmem
          exact hfails rfl
        | _ :: _ :: _, _, _ => rfl
      rw [hrun, honly]
      rfl

end Loading

/-- In the first list an annotation has no site, in the second an item has no kind. -/
theorem loadIndex_list_two :
    let as : List Annotation := [⟨.lob, some (.onClass "Order"), []⟩, ⟨.column, none, []⟩]
    let kindless : Data := .record [("fields", .record [])]
    let text := Format.json.render (.list (as.map Annotation.toData))
    let text' := Format.json.render (.list (kindless :: as.map Annotation.toData))
    ∃ t t', FileTree.empty.write? "index.json" text = some t ∧
      FileTree.empty.write? "index.json" text' = some t' ∧
      (FileTree.disk.loadIndex "index.json").run.run t = (.ok (ofList as), t) ∧
      (ofList as).size = 1 ∧
      (FileTree.disk.loadIndex "index.json").run.run t' = (.error (.malformed .json), t') := by
  intro as kindless text text'
  have hwrite (text : String) : ∃ t, FileTree.empty.write? "index.json" text = some t := ⟨_, rfl⟩
  obtain ⟨t, ht⟩ := hwrite text
  obtain ⟨t', ht'⟩ := hwrite text'
  have helements : (Tree.ofItems (as.map Annotation.toData)).map element? = as.map some := rfl
  obtain ⟨hload, hsize⟩ :=
    (loadIndex_list (by decide) (FileTree.read?_of_write? ht) (Json.parse?_render _)).1
      as helements
  obtain ⟨-, hrejected, hkindless⟩ :=
    loadIndex_list (by decide) (FileTree.read?_of_write? ht') (Json.parse?_render _)
  have hnone : element? (Tree.ofData kindless) = none :=
    hkindless _ List.mem_cons_self (by simp [Tree.Without, Tree.ofMembers])
  have herror := (hrejected _ List.mem_cons_self hnone).2 nofun
  exact ⟨t, t', ht, ht', hload, hsize, herror⟩

/-- An item with a site and fields but without a kind is taken for an index of two classes. -/
theorem kindless_item_is_loaded :
    let site : Site := .onClass "Order"
    let kindless : Data := .record [("target", site.toData), ("fields", .record [])]
    let item := Tree.ofData kindless
    let text := Format.json.render (.list [kindless])
    Json.parse? text = some (.list [item]) ∧ element? item = none ∧
      ∃ t ix, FileTree.empty.write? "index.json" text = some t ∧
        (FileTree.disk.loadIndex "index.json").run.run t = (.ok ix, t) ∧
        ix.classes.keys = ["target", "fields"] := by
  intro site kindless item text
  have hitems : Json.parse? text = some (.list [item]) := Json.parse?_render _
  have helement : element? item = none :=
    element?_without_kind (by simp [Tree.Without, Tree.ofMembers])
  obtain ⟨t, ht⟩ : ∃ t, FileTree.empty.write? "index.json" text = some t := ⟨_, rfl⟩
  have hrun := run_loadIndex (by decide) (FileTree.read?_of_write? ht) hitems
  have hclasses : (classes? item).map Dict.keys = some ["target", "fields"] := by decide
  obtain ⟨classes, hsome, hkeys⟩ := Option.map_eq_some_iff.1 hclasses
  refine ⟨hitems, helement, t, ⟨classes⟩, ht, ?_, hkeys⟩
  have hnone : [item].mapM element? = none := mapM_eq_none_iff.2 (by simp [helement])
  rw [hrun, hnone, only?, Option.bind_some, hsome]
  rfl

end Index

end MappingMetadata
