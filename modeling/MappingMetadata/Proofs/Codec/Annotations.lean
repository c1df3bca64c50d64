import Mathlib.Data.List.Induction
import MappingMetadata.Codec.Annotations
import MappingMetadata.Proofs.Annotation.Nesting
import MappingMetadata.Proofs.Codec.Records

/-!
# Annotations and indexes are read back

An annotation is read back when its fields and those of the annotations nested in it, at any
depth, have names of their own (`Annotation.Distinct`); an index is when its annotations are.

Nested annotations are read by a reader that is allowed a number of nestings. Every nesting enters
a record, so the depth of what is written bounds this number (`Annotation.readsBack_readNested`).
-/

namespace MappingMetadata

open Reading

/-! ## Maps -/

namespace Assoc

variable {κ ν : Type} [DecidableEq κ]

theorem put_of_not_mem {m : List (κ × ν)} {k : κ} (h : k ∉ keys m) (v : ν) :
    put m k v = m ++ [(k, v)] := by
  induction m with
  | nil => rfl
  | cons p m ih =>
    have hcons : keys (p :: m) = p.1 :: keys m := rfl
    rw [hcons, List.mem_cons, not_or] at h
    rw [put, if_neg fun e => h.1 e.symm, ih h.2, List.cons_append]

/-- The entries of a map make the map again. -/
theorem ofList_eq_self {m : List (κ × ν)} (h : (keys m).Nodup) : ofList m = m := by
  induction m using List.reverseRecOn with
  | nil => rfl
  | append_singleton m p ih =>
    have hkeys : keys (m ++ [p]) = keys m ++ [p.1] := List.map_append
    rw [hkeys, List.nodup_append] at h
    have hp : p.1 ∉ keys m := fun hmem => h.2.2 p.1 hmem p.1 List.mem_cons_self rfl
    have hfold : ofList (m ++ [p]) = put (ofList m) p.1 p.2 := by
      rw [ofList, List.foldl_append]
      rfl
    rw [hfold, ih h.1, put_of_not_mem hp]

end Assoc

theorem Dict.ofList_entries {κ ν : Type} [DecidableEq κ] (m : Dict κ ν) : ofList m.entries = m := by
  obtain ⟨entries, nodup⟩ := m
  have hentries : Assoc.ofList entries = entries := Assoc.ofList_eq_self nodup
  simp only [ofList, hentries]

/-- A map is read back when its values are, from keys that tell what they stand for. -/
theorem Codec.readsBack_dict {κ ν : Type} [DecidableEq κ] {keyText : κ → String} {key : Reader κ}
    {c : Codec ν} {m : Dict κ ν} (hkey : ∀ k d, (key d (.text (keyText k))).Yields k)
    (h : ∀ p ∈ m.entries, c.ReadsBack p.2) : (Codec.dict keyText key c).ReadsBack m := by
  intro d hd
  obtain ⟨d, rfl, hdepth⟩ := Data.exists_of_depth_record_le hd
  rw [List.forall_mem_map] at hdepth
  have hentries : ((Tree.ofMembers (m.entries.map fun p : κ × ν => (keyText p.1, c.write p.2))).mapM
      fun q : Tree × Tree => do return (← key d q.1, ← c.read d q.2)).Yields m.entries := by
    have hmap := Yields.mapM_map (g := id)
      (f := fun q : Tree × Tree => do return (← key d q.1, ← c.read d q.2))
      (p := fun p : κ × ν => (Tree.text (keyText p.1), Tree.ofData (c.write p.2)))
      fun p hp => (hkey p.1 d).bind ((h p hp d (hdepth p hp)).bind (yields_pure p))
    rw [Tree.ofMembers_eq, List.map_map]
    rwa [List.map_id] at hmap
  have hread := hentries.bind (f := fun es => pure (Dict.ofList es)) (yields_pure _)
  rw [Dict.ofList_entries] at hread
  exact (yields_node (.record _)).bind hread.enter

/-! ## Kinds and sites -/

theorem Kind.find?_name (k : Kind) : Kind.all.find? (fun k' => k'.name == k.name) = some k := by
  cases k <;> decide

theorem Kind.yields_read (k : Kind) (d : Nat) : (Kind.codec.read d (.text k.name)).Yields k :=
  have h : Kind.codec.Faithful 0 := .choice Kind.find?_name
  h.readsBack k d (Nat.zero_le d)

theorem Site.readsBack (s : Site) : Site.codec.ReadsBack s := by
  intro d hd
  cases s with
  | onClass c | onField c name | onMethod c name =>
    obtain ⟨d, rfl, -⟩ := Data.exists_of_depth_record_le hd
    cases d <;> exact fun _ => rfl

/-! ## Values -/

/-- The fields are a map by their names, here and in every annotation nested in this one: no name
occurs twice. -/
def Annotation.Distinct (a : Annotation) : Prop :=
  ∀ b ∈ a :: a.inner, (Assoc.keys b.fields).Nodup

instance (a : Annotation) : Decidable a.Distinct :=
  inferInstanceAs (Decidable (∀ b ∈ a :: a.inner, (Assoc.keys b.fields).Nodup))

/-- No name occurs twice among the fields of an annotation nested in the value. -/
def Value.Distinct (v : Value) : Prop := ∀ b ∈ v.inner, (Assoc.keys b.fields).Nodup

/-- How an annotation is written and read, given how those nested in it are read. -/
def Codec.annotationWith (inner : Reader Annotation) : Codec Annotation where
  write a := a.toData
  read := inner

/-- How a value is written and read, given how annotations nested in it are read. -/
def Codec.valueWith (inner : Reader Annotation) : Codec Value where
  write v := v.toData
  read := Value.readWith inner

theorem Annotation.listToData_eq (as : List Annotation) : listToData as = as.map toData := by
  induction as with
  | nil => rfl
  | cons a as ih => rw [listToData, ih, List.map_cons]

theorem Annotation.fieldsToData_eq (fields : List (String × Value)) :
    fieldsToData fields = fields.map fun p => (p.1, p.2.toData) := by
  induction fields with
  | nil => rfl
  | cons p fields ih => rw [fieldsToData, ih, List.map_cons]

namespace Value

variable {β : Type} {inner : Reader Annotation}

theorem depth_typed (type : String) (x : Data) : (Data.typed type x).depth = x.depth + 1 := by
  simp [Data.typed, Data.depth, Data.membersDepth]

/-- What is written under the name of a type is read by the reader of this type. -/
theorem yields_typed (type : String) (c : Codec β) (make : β → Value) (b : β) {d : Nat}
    (htype : (readers inner).find? (fun p => p.1 == type) =
      some (type, fun d t => return make (← c.read d t)))
    (hb : c.ReadsBack b) (hd : (Data.typed type (c.write b)).depth ≤ d) :
    (readWith inner d (Tree.ofData (.typed type (c.write b)))).Yields (make b) := by
  obtain ⟨d, rfl, hdepth⟩ := Data.exists_of_depth_record_le hd
  have hdepth' : (c.write b).depth ≤ d := hdepth ("value", c.write b) (by simp)
  have hvalue := (hb d hdepth').bind (f := fun b => pure (make b)) (yields_pure (make b))
  have htag : (Reader.choice (readers inner) Prod.fst d (.text type)).Yields
      (type, fun d t => return make (← c.read d t)) := by
    refine (yields_follow (.text type)).bind ?_
    have hname := yields_ofOption (type, fun d t => return make (← c.read d t))
    rwa [← htype] at hname
  have hmembers : (members ["type", "value"] (Tree.ofMembers
      [("type", .text type), ("value", c.write b)])).Yields
      (Tree.named [("type", .text type), ("value", c.write b)], []) :=
    yields_members_known (by simp) (by simp)
  refine (yields_node (.record _)).bind (Yields.enter (hmembers.bind ?_))
  have hreader := htag.bind (f := fun p => pure p.2) (yields_pure _)
  exact hreader.bind (f := fun r => r d (Tree.ofData (c.write b))) hvalue

/-- How the constants of an enum type are written and read. -/
def constantCodec (key : String) (c : Codec β) : Codec (String × β × Unit) where
  write := (Codec.record (.required "type_name" .text <| .required key c .done)).write
  read := constantMembers key c

theorem readsBack_constant {key : String} {c : Codec β} {p : String × β × Unit}
    (hkey : "type_name" ≠ key) (h : c.ReadsBack p.2.1) : (constantCodec key c).ReadsBack p := by
  intro d hd
  have hmembers : (Fields.required "type_name" .text <| .required key c .done).ReadsBack p :=
    Fields.readsBack_member (Codec.readsBack_text p.1) <|
      Fields.readsBack_member h Fields.readsBack_done
  have hkeys : ["type_name", key].Nodup := by simpa using hkey
  exact (yields_follow (.record _)).bind (Codec.readsBack_record hmembers rfl hkeys d hd)

/-- A value is read back when the annotations nested in it are. -/
theorem readsBack {v : Value} (hv : v.Distinct)
    (h : ∀ a, a.Distinct → a.toData.depth < v.toData.depth →
      (Codec.annotationWith inner).ReadsBack a) : (Codec.valueWith inner).ReadsBack v := by
  intro d hd
  have htext (s : String) : Codec.text.ReadsBack s := Codec.readsBack_text s
  have htexts (items : List String) : Codec.text.list.ReadsBack items :=
    Codec.readsBack_list fun s _ => htext s
  cases v with
  | string s => exact yields_typed "string" .text string s rfl (htext s) hd
  | int n => exact yields_typed "int" .int64 int n rfl (Codec.readsBack_int64 n) hd
  | bool b => exact yields_typed "bool" .bool bool b rfl (Codec.readsBack_bool b) hd
  | constant typeName tag =>
    have hp : (constantCodec "tag" .text).ReadsBack (typeName, tag, ()) :=
      readsBack_constant (by decide) (htext tag)
    exact yields_typed "enum" (constantCodec "tag" .text) (fun p => constant p.1 p.2.1)
      (typeName, tag, ()) rfl hp hd
  | classRef name => exact yields_typed "class" .text classRef name rfl (htext name) hd
  | strings items =>
    exact yields_typed "stringArray" (.list .text) strings items rfl (htexts items) hd
  | constants typeName tags =>
    have hp : (constantCodec "tags" (.list .text)).ReadsBack (typeName, tags, ()) :=
      readsBack_constant (by decide) (htexts tags)
    exact yields_typed "enumArray" (constantCodec "tags" (.list .text))
      (fun p => constants p.1 p.2.1) (typeName, tags, ()) rfl hp hd
  | classRefs names =>
    exact yields_typed "classArray" (.list .text) classRefs names rfl (htexts names) hd
  | nested a =>
    have hdepth : a.toData.depth < (nested a).toData.depth := by
      rw [toData, depth_typed]
      exact Nat.lt_succ_self _
    exact yields_typed "nested" (Codec.annotationWith inner) nested a rfl (h a hv hdepth) hd
  | array as =>
    have hdata : (array as).toData =
        .typed "array" ((Codec.annotationWith inner).list.write as) := by
      rw [toData, Annotation.listToData_eq]
      rfl
    have hread : (Codec.annotationWith inner).list.ReadsBack as := by
      refine Codec.readsBack_list fun a ha => h a (fun b hb => hv b ?_) ?_
      · exact mem_inner_array_iff.2 ⟨a, ha, hb⟩
      · rw [hdata, depth_typed, Nat.lt_succ_iff]
        exact Nat.le_of_lt (Data.depth_lt_of_mem_list (List.mem_map_of_mem ha))
    change (array as).toData.depth ≤ d at hd
    change (readWith inner d (Tree.ofData (array as).toData)).Yields (array as)
    rw [hdata] at hd ⊢
    exact yields_typed "array" _ array as rfl hread hd

end Value

/-! ## Annotations -/

namespace Annotation

/-- Fields of different names are read back when their values are. -/
theorem readsBack_fields {inner : Reader Annotation} {fields : Attributes}
    (hfields : (Assoc.keys fields).Nodup)
    (h : ∀ p ∈ fields, (Codec.valueWith inner).ReadsBack p.2) :
    (fieldsCodec inner).ReadsBack fields := by
  intro d hd
  let m : Dict String Value := ⟨fields, hfields⟩
  have hdict : (Codec.dict id Reader.text (Codec.valueWith inner)).ReadsBack m :=
    Codec.readsBack_dict Reader.yields_text h
  have hwrite : (fieldsCodec inner).write fields =
      (Codec.dict id Reader.text (Codec.valueWith inner)).write m :=
    congrArg Data.record (fieldsToData_eq fields)
  rw [hwrite] at hd ⊢
  exact (hdict d hd).bind (yields_pure fields)

/-- The members of a written annotation; the site may be missing. -/
def writtenMembers (inner : Reader Annotation) : Fields (Kind × Option Site × Attributes × Unit) :=
  .required "kind" Kind.codec <| .optional "target" Site.codec <|
  .member "fields" (fieldsCodec inner) (some []) .done

/-- An annotation is read back when its fields are. -/
theorem readsBack_readWith {inner : Reader Annotation} {a : Annotation}
    (h : (fieldsCodec inner).ReadsBack a.fields) :
    (Codec.annotationWith (readWith inner)).ReadsBack a := by
  obtain ⟨kind, site, fields⟩ := a
  intro d hd
  obtain ⟨d, rfl, hdepth⟩ := Data.exists_of_depth_record_le hd
  have hkind := Kind.yields_read kind d
  have hfields := h d (hdepth ("fields", (fieldsCodec inner).write fields) (by simp [fieldsCodec]))
  suffices hmembers : ((Codec.record (writtenMembers inner)).read (d + 1)
      (Tree.ofData (toData ⟨kind, site, fields⟩))).Yields (kind, site, fields, ()) from
    hmembers.bind (yields_pure _)
  have hkeys : (writtenMembers inner).keys = ["kind", "target", "fields"] := rfl
  cases site with
  | none =>
    refine Codec.yields_record (by simp) (by simp [hkeys]) ?_
    refine Fields.yields_member rfl hkind ?_
    refine Fields.yields_absent (p := (none, fields, ())) rfl ?_
    exact Fields.yields_member rfl hfields (yields_pure ())
  | some s =>
    have hsite := Site.readsBack s d (hdepth ("target", s.toData) (by simp))
    refine Codec.yields_record (by simp) (by simp [hkeys]) ?_
    refine Fields.yields_member rfl hkind ?_
    refine Fields.yields_member rfl (Codec.yields_optional (by cases s <;> nofun) hsite) ?_
    exact Fields.yields_member rfl hfields (yields_pure ())

theorem depth_lt_of_mem_fields {a : Annotation} {p : String × Value} (hp : p ∈ a.fields) :
    p.2.toData.depth < a.toData.depth := by
  obtain ⟨kind, site, fields⟩ := a
  have hp' : (p.1, p.2.toData) ∈ fieldsToData fields := by
    rw [fieldsToData_eq]
    exact List.mem_map_of_mem hp
  have hfields : ("fields", Data.record (fieldsToData fields)) ∈
      ("kind", Data.text kind.name) :: (site.map fun s => ("target", s.toData)).toList ++
        [("fields", .record (fieldsToData fields))] := by simp
  exact Nat.lt_trans (Data.depth_lt_of_mem_record hp') (Data.depth_lt_of_mem_record hfields)

/-- Nothing is lost with as many nestings as the written annotation is deep. -/
theorem readsBack_readNested {n : Nat} {a : Annotation} (ha : a.Distinct)
    (hn : a.toData.depth < n) : (Codec.annotationWith (readNested n)).ReadsBack a := by
  -- What a field nests is written less deep than the annotation, so one nesting less is enough.
  induction n generalizing a with
  | zero => exact absurd hn (Nat.not_lt_zero _)
  | succ n ih =>
    refine readsBack_readWith (readsBack_fields (ha a List.mem_cons_self) fun p hp => ?_)
    refine Value.readsBack (fun b hb => ha b ?_) fun b hb hdepth => ih hb ?_
    · exact List.mem_cons_of_mem _ (mem_inner_iff.2 ⟨p, hp, hb⟩)
    · have hp' := depth_lt_of_mem_fields hp
      exact Nat.lt_of_lt_of_le (Nat.lt_trans hdepth hp') (Nat.le_of_lt_succ hn)

theorem readsBack {a : Annotation} (ha : a.Distinct) : codec.ReadsBack a := fun d hd =>
  readsBack_readNested ha (Nat.lt_succ_of_le hd) d hd

end Annotation

/-! ## Indexes -/

theorem ClassEntry.readsBack {e : ClassEntry} (h : ∀ a ∈ e.toList, a.Distinct) :
    ClassEntry.codec.ReadsBack e := by
  have hannotations : (Codec.dict Kind.name Kind.codec.read (.list Annotation.codec)).ReadsBack
      e.annotations := by
    refine Codec.readsBack_dict Kind.yields_read fun p hp => Codec.readsBack_list fun a ha => ?_
    exact Annotation.readsBack (h a (List.mem_flatten.2 ⟨p.2, List.mem_map_of_mem hp, ha⟩))
  have hmembers : ClassEntry.members.ReadsBack e :=
    Fields.readsBack_iso rfl <| Fields.readsBack_member (Codec.readsBack_bool _) <|
      Fields.readsBack_member hannotations Fields.readsBack_done
  exact Codec.readsBack_record hmembers rfl (by decide)

namespace Index

theorem readsBack {ix : Index} (h : ∀ a ∈ ix.toList, a.Distinct) : codec.ReadsBack ix := by
  have hclasses : ClassEntry.dictCodec.ReadsBack ix.classes := by
    refine Codec.readsBack_dict Reader.yields_text fun p hp => ClassEntry.readsBack fun a ha => ?_
    exact h a (List.mem_flatMap.2 ⟨p.2, List.mem_map_of_mem hp, ha⟩)
  have hmembers : members.ReadsBack ix :=
    Fields.readsBack_iso rfl <| Fields.readsBack_member hclasses Fields.readsBack_done
  exact Codec.readsBack_record hmembers rfl (by decide)

/-- A written index is no list of annotations, so it is read as the index that it is. -/
theorem yields_readSnapshot {ix : Index} (h : ∀ a ∈ ix.toList, a.Distinct) {d : Nat}
    (hd : (codec.write ix).depth ≤ d) :
    (readSnapshot d (Tree.ofData (codec.write ix))).Yields ix := by
  -- The first attempt asks for a list and is given a map.
  have hlist : (Reader.list Annotation.codec.read d (Tree.ofData (codec.write ix))).Fails :=
    Fails.of_bind (yields_node _) fails_failure
  have hattempts : ((do return ofList (← Reader.list Annotation.codec.read d
      (Tree.ofData (codec.write ix)))) <|>
      codec.read d (Tree.ofData (codec.write ix))).Yields ix :=
    Yields.orElse (hlist.bind _) (readsBack h d hd)
  exact (yields_settle hd).bind hattempts.fromKept

end Index

end MappingMetadata
