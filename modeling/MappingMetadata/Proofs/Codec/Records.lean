import Mathlib.Data.List.Basic
import MappingMetadata.Codec.Format
import MappingMetadata.Proofs.Codec.Yielding
import MappingMetadata.Proofs.Json.Parsing

/-!
# Codecs that read back what they write

A codec is *faithful* when it reads every value back from what it has written of it. The rules
below say so of the codecs of leaves and of those that are put together from faithful ones, member
by member; the codec of a particular record is then shown to be faithful by going through its
members.

* **Records** (`Faithful.record`). The members of a record are found by their names, so no two may
  have the same.
* **Merged records** (`Faithful.merged`). The reader of the outer record takes the members that it
  knows and settles the others for the inner one. Each gets what is its own as long as they have
  no name in common.

What is faithful is so up to a depth, so that it can be told how much of its budget a reader
needs.
-/

namespace MappingMetadata

variable {α β : Type} {n : Nat}

open Reading

/-! ## Leaves and lists -/

theorem Reader.yields_text (s : String) (d : Nat) : (Reader.text d (.text s)).Yields s :=
  (yields_node (.text s)).bind (yields_pure s)

namespace Codec

/-- The codec reads the value back from what it writes of it, given a budget for its depth. -/
def ReadsBack (c : Codec α) (a : α) : Prop :=
  ∀ d, (c.write a).depth ≤ d → (c.read d (Tree.ofData (c.write a))).Yields a

/-- The codec reads every value back, and what it writes is not null and not too deep. -/
structure Faithful (c : Codec α) (n : Nat) : Prop where
  readsBack : ∀ a, c.ReadsBack a
  depth_le : ∀ a, (c.write a).depth ≤ n
  ne_null : ∀ a, c.write a ≠ .null

theorem readsBack_text (s : String) : Codec.text.ReadsBack s := fun d _ =>
  Reader.yields_text s d

theorem Faithful.text : Codec.text.Faithful n where
  readsBack := readsBack_text
  depth_le _ := Nat.zero_le n
  ne_null _ := nofun

theorem readsBack_bool (b : Bool) : Codec.bool.ReadsBack b := fun _ _ =>
  (yields_node (.bool b)).bind (yields_pure b)

theorem Faithful.bool : Codec.bool.Faithful n where
  readsBack := readsBack_bool
  depth_le _ := Nat.zero_le n
  ne_null _ := nofun

theorem toInt64?_toInt (k : Int64) : Reader.toInt64? k.toInt = some k := by
  have hfits : -Nat.pow 2 63 ≤ k.toInt ∧ k.toInt < Nat.pow 2 63 := ⟨k.le_toInt, k.toInt_lt⟩
  rw [Reader.toInt64?, if_pos hfits, Int64.ofInt_toInt]

theorem readsBack_int64 (k : Int64) : Codec.int64.ReadsBack k := by
  intro d _
  have hvalue : (ofOption (Reader.toInt64? k.toInt)).Yields k := by
    rw [toInt64?_toInt]
    exact yields_ofOption k
  exact (yields_node (.int k)).bind hvalue

theorem Faithful.int64 : Codec.int64.Faithful n where
  readsBack := readsBack_int64
  depth_le _ := Nat.zero_le n
  ne_null _ := nofun

/-- The values of a vocabulary are told apart by their names. -/
theorem Faithful.choice {values : List α} {name : α → String}
    (h : ∀ a, values.find? (fun b => name b == name a) = some a) :
    (Codec.choice values name).Faithful n where
  readsBack a _ _ := by
    refine (yields_follow (.text (name a))).bind ?_
    have hvalue : (ofOption (values.find? fun b => name b == name a)).Yields a := by
      rw [h]
      exact yields_ofOption a
    exact hvalue
  depth_le _ := Nat.zero_le n
  ne_null _ := nofun

theorem yields_optional {r : Reader α} {x : Data} {d : Nat} {a : α} (hx : x ≠ .null)
    (h : (r d (Tree.ofData x)).Yields a) :
    (Reader.optional r d (Tree.ofData x)).Yields (some a) := by
  refine (yields_follow x).bind ?_
  cases x with
  | null => exact absurd rfl hx
  | bool b | int k | text s | list ds | record ms => exact h.bind (yields_pure (some a))

theorem readsBack_optional {c : Codec α} (h : c.Faithful n) (a : Option α) :
    c.optional.ReadsBack a := by
  intro d hd
  cases a with
  | none => exact (yields_follow .null).bind (yields_pure none)
  | some a => exact yields_optional (h.ne_null a) (h.readsBack a d hd)

theorem readsBack_list {c : Codec α} {as : List α} (h : ∀ a ∈ as, c.ReadsBack a) :
    c.list.ReadsBack as := by
  intro d hd
  obtain ⟨d, rfl, hdepth⟩ := Data.exists_of_depth_list_le hd
  rw [List.forall_mem_map] at hdepth
  have hitems : ((Tree.ofItems (as.map c.write)).mapM (c.read d)).Yields as := by
    have hmap := Yields.mapM_map (g := id) fun a ha => h a ha d (hdepth a ha)
    rw [Tree.ofItems_eq, List.map_map]
    rwa [List.map_id] at hmap
  exact (yields_node (.list (as.map c.write))).bind hitems.enter

theorem Faithful.list {c : Codec α} (h : c.Faithful n) : c.list.Faithful (n + 1) where
  readsBack as := readsBack_list fun a _ => h.readsBack a
  depth_le as := by
    rw [Codec.list, Data.depth_list_le_iff, List.forall_mem_map]
    exact fun a _ => h.depth_le a
  ne_null _ := nofun

/-- Values of another type, when nothing is lost on the way there and back. -/
theorem Faithful.iso {c : Codec α} {make : α → β} {back : β → α} (hback : ∀ b, make (back b) = b)
    (h : c.Faithful n) : (c.iso make back).Faithful n where
  readsBack b d hd := by
    have hread := (h.readsBack (back b) d hd).bind (f := fun a => pure (make a)) (yields_pure _)
    rw [hback] at hread
    exact hread
  depth_le b := h.depth_le (back b)
  ne_null b := h.ne_null (back b)

end Codec

/-! ## Members -/

/-- Members by their names, as they are read. -/
def Tree.named (ms : List (String × Data)) : List (String × Tree) :=
  ms.map fun m => (m.1, Tree.ofData m.2)

namespace Tree

theorem lookup_named_eq_none {ms : List (String × Data)} {k : String}
    (h : k ∉ ms.map Prod.fst) : (named ms).lookup k = none := by
  induction ms with
  | nil => rfl
  | cons m ms ih =>
    rw [List.map_cons, List.mem_cons, not_or] at h
    have hk : (k == m.1) = false := beq_false_of_ne h.1
    rw [named, List.map_cons, List.lookup_cons, hk]
    exact ih h.2

theorem lookup_named {ms : List (String × Data)} (hms : (ms.map Prod.fst).Nodup)
    {m : String × Data} (hm : m ∈ ms) : (named ms).lookup m.1 = some (ofData m.2) := by
  induction ms with
  | nil => cases hm
  | cons m₀ ms ih =>
    rw [List.map_cons, List.nodup_cons] at hms
    rw [named, List.map_cons, List.lookup_cons]
    rcases List.mem_cons.1 hm with rfl | hm
    · rw [beq_self_eq_true]
    · have hk : m.1 ≠ m₀.1 := fun e => hms.1 (e ▸ List.mem_map_of_mem hm)
      rw [beq_false_of_ne hk]
      exact ih hms.2 hm

end Tree

/-- The known members are told from the others, each in their order. -/
theorem Reading.yields_members (keys : List String) {ms : List (String × Data)}
    (hms : (ms.map Prod.fst).Nodup) :
    (members keys (Tree.ofMembers ms)).Yields
      (Tree.named (ms.filter fun m => m.1 ∈ keys), Tree.named (ms.filter fun m => m.1 ∉ keys)) := by
  induction ms with
  | nil => exact yields_pure _
  | cons m ms ih =>
    rw [List.map_cons, List.nodup_cons] at hms
    have hname : (memberName keys (.text m.1)).Yields (some m.1) :=
      (yields_node (.text m.1)).bind (yields_pure _)
    have hnone : (Tree.named (ms.filter fun m => m.1 ∈ keys)).lookup m.1 = none := by
      refine Tree.lookup_named_eq_none fun hmem => hms.1 ?_
      exact List.Sublist.subset (List.Sublist.map _ List.filter_sublist) hmem
    refine hname.bind ((ih hms.2).bind ?_)
    by_cases hk : m.1 ∈ keys
    · have hknown : (m :: ms).filter (fun m => m.1 ∈ keys) =
          m :: ms.filter fun m => m.1 ∈ keys := List.filter_cons_of_pos (by simpa using hk)
      have hothers : (m :: ms).filter (fun m => m.1 ∉ keys) =
          ms.filter fun m => m.1 ∉ keys := List.filter_cons_of_neg (by simpa using hk)
      rw [hknown, hothers]
      simp only [hk, if_true, hnone, Option.isSome_none, Bool.false_eq_true, if_false]
      exact yields_pure _
    · have hknown : (m :: ms).filter (fun m => m.1 ∈ keys) =
          ms.filter fun m => m.1 ∈ keys := List.filter_cons_of_neg (by simpa using hk)
      have hothers : (m :: ms).filter (fun m => m.1 ∉ keys) =
          m :: ms.filter fun m => m.1 ∉ keys := List.filter_cons_of_pos (by simpa using hk)
      rw [hknown, hothers]
      simp only [hk, if_false]
      exact yields_pure _

theorem Reading.yields_members_known {keys : List String} {ms : List (String × Data)}
    (hms : (ms.map Prod.fst).Nodup) (hknown : ∀ m ∈ ms, m.1 ∈ keys) :
    (members keys (Tree.ofMembers ms)).Yields (Tree.named ms, []) := by
  have hsplit := yields_members keys hms
  rwa [List.filter_eq_self.2 fun m hm => decide_eq_true (hknown m hm),
    List.filter_eq_nil_iff.2 fun m hm => by simpa using hknown m hm] at hsplit

/-- The members of one record are told from those of another that are merged into it. -/
theorem Reading.yields_members_append {ms ms' : List (String × Data)}
    (h : ((ms ++ ms').map Prod.fst).Nodup) :
    (members (ms.map Prod.fst) (Tree.ofMembers (ms ++ ms'))).Yields
      (Tree.named ms, Tree.named ms') := by
  have hsplit := yields_members (ms.map Prod.fst) h
  rw [List.map_append, List.nodup_append] at h
  have hown : ∀ m ∈ ms, m.1 ∈ ms.map Prod.fst := fun m hm => List.mem_map_of_mem hm
  have hother : ∀ m ∈ ms', m.1 ∉ ms.map Prod.fst := fun m hm hmem =>
    h.2.2 m.1 hmem m.1 (List.mem_map_of_mem hm) rfl
  have hknown : (ms ++ ms').filter (fun m => m.1 ∈ ms.map Prod.fst) = ms := by
    rw [List.filter_append, List.filter_eq_self.2 fun m hm => decide_eq_true (hown m hm),
      List.filter_eq_nil_iff.2 fun m hm => by simpa using hother m hm, List.append_nil]
  have hothers : (ms ++ ms').filter (fun m => m.1 ∉ ms.map Prod.fst) = ms' := by
    rw [List.filter_append, List.filter_eq_self.2 fun m hm => decide_eq_true (hother m hm),
      List.filter_eq_nil_iff.2 fun m hm => by simpa using hown m hm, List.nil_append]
  rwa [hknown, hothers] at hsplit

namespace Fields

/-- The value is read back from named members that hold what is written of it. -/
def ReadsBack (f : Fields α) (a : α) : Prop :=
  ∀ d members, (∀ m ∈ f.write a, m.2.depth ≤ d) →
    (∀ m ∈ f.write a, members.lookup m.1 = some (Tree.ofData m.2)) → (f.read d members).Yields a

/-- The members are written under their names and read back, and they are not too deep. -/
structure Faithful (f : Fields α) (n : Nat) : Prop where
  readsBack : ∀ a, f.ReadsBack a
  depth_le : ∀ a, ∀ m ∈ f.write a, m.2.depth ≤ n
  names : ∀ a, (f.write a).map Prod.fst = f.keys

theorem readsBack_done {u : Unit} : Fields.done.ReadsBack u := fun _ _ _ _ => yields_pure _

theorem Faithful.done : Fields.done.Faithful n where
  readsBack _ := readsBack_done
  depth_le _ _ hm := (List.not_mem_nil hm).elim
  names _ := rfl

variable {key : String} {rest : Fields β}

theorem yields_member {c : Codec α} {absent : Option α} {d : Nat} {members : List (String × Tree)}
    {t : Tree} {p : α × β} (hlookup : members.lookup key = some t) (h : (c.read d t).Yields p.1)
    (hrest : (rest.read d members).Yields p.2) :
    ((member key c absent rest).read d members).Yields p := by
  simp only [member, hlookup]
  exact h.bind (hrest.bind (yields_pure p))

theorem yields_absent {c : Codec α} {d : Nat} {members : List (String × Tree)} {p : α × β}
    (hlookup : members.lookup key = none) (hrest : (rest.read d members).Yields p.2) :
    ((member key c (some p.1) rest).read d members).Yields p := by
  simp only [member, hlookup]
  exact (yields_ofOption p.1).bind (hrest.bind (yields_pure p))

theorem readsBack_member {c : Codec α} {absent : Option α} {p : α × β} (h : c.ReadsBack p.1)
    (hrest : rest.ReadsBack p.2) : (member key c absent rest).ReadsBack p := by
  intro d members hdepth hlookup
  have hmem : ∀ m ∈ rest.write p.2, m ∈ (member key c absent rest).write p :=
    fun _ hm => List.mem_cons_of_mem _ hm
  have hfirst := hlookup (key, c.write p.1) List.mem_cons_self
  have hvalue := h d (hdepth (key, c.write p.1) List.mem_cons_self)
  refine yields_member hfirst hvalue ?_
  exact hrest d members (fun m hm => hdepth m (hmem m hm)) fun m hm => hlookup m (hmem m hm)

theorem Faithful.member {c : Codec α} {absent : Option α} (h : ∀ a, c.ReadsBack a)
    (hdepth : ∀ a, (c.write a).depth ≤ n) (hrest : rest.Faithful n) :
    (Fields.member key c absent rest).Faithful n where
  readsBack p := readsBack_member (h p.1) (hrest.readsBack p.2)
  depth_le p := List.forall_mem_cons.2 ⟨hdepth p.1, hrest.depth_le p.2⟩
  names p := congrArg (key :: ·) (hrest.names p.2)

theorem Faithful.required {c : Codec α} (h : c.Faithful n) (hrest : rest.Faithful n) :
    (Fields.required key c rest).Faithful n := .member h.readsBack h.depth_le hrest

theorem Faithful.optional {c : Codec α} (h : c.Faithful n) (hrest : rest.Faithful n) :
    (Fields.optional key c rest).Faithful n :=
  .member (Codec.readsBack_optional h) (fun a => by
    cases a with
    | none => exact Nat.zero_le n
    | some a => exact h.depth_le a) hrest

theorem Faithful.list {c : Codec α} (h : c.Faithful n) (hrest : rest.Faithful (n + 1)) :
    (Fields.list key c rest).Faithful (n + 1) := .member h.list.readsBack h.list.depth_le hrest

theorem Faithful.flag {absent : Bool} (hrest : rest.Faithful n) :
    (Fields.flag key absent rest).Faithful n :=
  have h : Codec.bool.Faithful n := .bool
  .member h.readsBack h.depth_le hrest

theorem readsBack_iso {f : Fields α} {make : α → β} {back : β → α} {b : β}
    (hback : make (back b) = b) (h : f.ReadsBack (back b)) : (f.iso make back).ReadsBack b := by
  intro d members hdepth hlookup
  have hread := (h d members hdepth hlookup).bind (f := fun a => pure (make a)) (yields_pure _)
  rw [hback] at hread
  exact hread

theorem Faithful.iso {f : Fields α} {make : α → β} {back : β → α}
    (hback : ∀ b, make (back b) = b) (h : f.Faithful n) : (f.iso make back).Faithful n where
  readsBack b := readsBack_iso (hback b) (h.readsBack (back b))
  depth_le b := h.depth_le (back b)
  names b := h.names (back b)

end Fields

/-! ## Whole records -/

namespace Codec

/-- A record is read from its written members when they are read from their names. -/
theorem yields_record {f : Fields α} {ms : List (String × Data)} {d : Nat} {a : α}
    (hms : (ms.map Prod.fst).Nodup) (hknown : ∀ m ∈ ms, m.1 ∈ f.keys)
    (h : (f.read d (Tree.named ms)).Yields a) :
    ((record f).read (d + 1) (Tree.ofData (.record ms))).Yields a := by
  exact (yields_node (.record ms)).bind ((yields_members_known hms hknown).bind h).enter

theorem readsBack_record {f : Fields α} {a : α} (h : f.ReadsBack a)
    (hnames : (f.write a).map Prod.fst = f.keys) (hkeys : f.keys.Nodup) :
    (record f).ReadsBack a := by
  intro d hd
  obtain ⟨d, rfl, hdepth⟩ := Data.exists_of_depth_record_le hd
  have hnodup : ((f.write a).map Prod.fst).Nodup := hnames ▸ hkeys
  refine yields_record hnodup (fun m hm => hnames ▸ List.mem_map_of_mem hm) ?_
  exact h d _ hdepth fun m hm => Tree.lookup_named hnodup hm

theorem Faithful.record {f : Fields α} (hkeys : f.keys.Nodup) (h : f.Faithful n) :
    (Codec.record f).Faithful (n + 1) where
  readsBack a := readsBack_record (h.readsBack a) (h.names a) hkeys
  depth_le a := Data.depth_record_le_iff.2 (h.depth_le a)
  ne_null _ := nofun

/-- The members of a merged record are those of the outer and those of the inner one; each gets
its own as long as they have none in common. -/
theorem readsBack_merged {f : Fields α} {inner : Fields β} {p : α × β} (h : f.ReadsBack p.1)
    (h' : inner.ReadsBack p.2) (hnames : (f.write p.1).map Prod.fst = f.keys)
    (hnames' : (inner.write p.2).map Prod.fst = inner.keys)
    (hkeys : (f.keys ++ inner.keys).Nodup) : (Codec.merged f inner).ReadsBack p := by
  intro d hd
  obtain ⟨d, rfl, hdepth⟩ := Data.exists_of_depth_record_le hd
  rw [List.forall_mem_append] at hdepth
  have hms : ((f.write p.1 ++ inner.write p.2).map Prod.fst).Nodup := by
    rw [List.map_append, hnames, hnames']
    exact hkeys
  have hms' : ((f.write p.1).map Prod.fst).Nodup ∧ ((inner.write p.2).map Prod.fst).Nodup := by
    rw [List.map_append, List.nodup_append] at hms
    exact ⟨hms.1, hms.2.1⟩
  have hsplit := Reading.yields_members_append hms
  rw [hnames] at hsplit
  have houter := h d _ hdepth.1 fun m hm => Tree.lookup_named hms'.1 hm
  -- The others are settled, which leaves written data as it is.
  have hsettled : ((Tree.named (inner.write p.2)).mapM fun q : String × Tree => do
      return (Tree.text q.1, ← settle d q.2)).Yields (Tree.ofMembers (inner.write p.2)) := by
    rw [Tree.ofMembers_eq, Tree.named]
    exact Yields.mapM_map fun m hm => (yields_settle (hdepth.2 m hm)).bind (yields_pure _)
  have hknown : ∀ m ∈ inner.write p.2, m.1 ∈ inner.keys := fun m hm =>
    hnames' ▸ List.mem_map_of_mem hm
  have hinner := h' d _ hdepth.2 fun m hm => Tree.lookup_named hms'.2 hm
  refine (yields_node (.record _)).bind (Yields.enter (hsplit.bind (houter.bind ?_)))
  exact hsettled.bind ((yields_members_known hms'.2 hknown).bind
    (hinner.fromSettled.bind (yields_pure p)))

theorem Faithful.merged {f : Fields α} {inner : Fields β} (hkeys : (f.keys ++ inner.keys).Nodup)
    (h : f.Faithful n) (h' : inner.Faithful n) : (Codec.merged f inner).Faithful (n + 1) where
  readsBack p :=
    readsBack_merged (h.readsBack p.1) (h'.readsBack p.2) (h.names p.1) (h'.names p.2) hkeys
  depth_le p := Data.depth_record_le_iff.2 fun m hm =>
    (List.mem_append.1 hm).elim (h.depth_le p.1 m) (h'.depth_le p.2 m)
  ne_null _ := nofun

end Codec

/-! ## Whole texts -/

/-- What a reader yields on written data it reads from the JSON text of the data. -/
theorem Format.read_render_json {r : Reader α} {x : Data} {a : α}
    (h : (r Json.maxDepth (Tree.ofData x)).Yields a) : json.read r (json.render x) = .ok a := by
  have hread : (r Json.maxDepth (Tree.ofData x)).run {} = some (a, {}) := h {}
  simp only [read, render, Json.parse?_render, Option.bind_eq_bind, Option.bind_some, hread]

end MappingMetadata
