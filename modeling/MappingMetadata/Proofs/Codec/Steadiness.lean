import MappingMetadata.Codec.Annotations
import MappingMetadata.Proofs.Codec.Yielding

/-!
# Readings that change nothing

A reading carries its surroundings along, which change when an alias is followed. Where none may be
followed, as in JSON, a *steady* reading leaves the surroundings as it found them. What several
steady readings come to (`Reading.value?`) then depends on each by itself, not on those before it.

All readers of annotations and indexes are steady (`Annotation.steady`,
`ClassEntry.steady_dictCodec`), by one rule for each way of putting readers together. Where one
reading decides which comes next, the rule has to know that the choice was among steady ones
(`Reading.Gives`).
-/

namespace MappingMetadata

variable {α β : Type}

namespace Reading

/-- Where no alias may be followed, the surroundings stay as they are. -/
def Steady (r : Reading α) : Prop := ∀ s, s.jumps = 0 → ∀ p, r.run s = some p → p.2 = s

/-- Whatever the reading ends with is of this kind. -/
def Gives (r : Reading α) (P : α → Prop) : Prop := ∀ s p, r.run s = some p → P p.1

/-! ## Putting readings together -/

theorem steady_pure (a : α) : Steady (pure a) := by
  intro s _ p hp
  cases hp
  rfl

theorem steady_failure : Steady (failure : Reading α) := nofun

theorem steady_ofOption (o : Option α) : (ofOption o).Steady := by
  cases o with
  | none => exact steady_failure
  | some a => exact steady_pure a

/-- What is read after a choice is steady when it is for each of those offered. -/
theorem Steady.bind_of {P : α → Prop} {r : Reading α} {f : α → Reading β} (h : r.Steady)
    (hr : r.Gives P) (h' : ∀ a, P a → (f a).Steady) : (r >>= f).Steady := by
  intro s hs p hp
  rw [StateT.run_bind] at hp
  obtain ⟨⟨a, s'⟩, ha, hrest⟩ := Option.bind_eq_some_iff.1 hp
  have hsame : s' = s := h s hs _ ha
  subst hsame
  exact h' a (hr s' _ ha) s' hs p hrest

theorem Steady.bind {r : Reading α} {f : α → Reading β} (h : r.Steady)
    (h' : ∀ a, (f a).Steady) : (r >>= f).Steady :=
  h.bind_of (P := fun _ => True) (fun _ _ _ => trivial) fun a _ => h' a

theorem Steady.ite {c : Prop} [Decidable c] {r r' : Reading α} (h : r.Steady) (h' : r'.Steady) :
    (if c then r else r').Steady := by
  split
  · exact h
  · exact h'

theorem Steady.mapM {f : α → Reading β} {as : List α} (h : ∀ a ∈ as, (f a).Steady) :
    (as.mapM f).Steady := by
  induction as with
  | nil => exact steady_pure []
  | cons a as ih =>
    rw [List.forall_mem_cons] at h
    rw [List.mapM_cons]
    exact h.1.bind fun b => (ih h.2).bind fun bs => steady_pure (b :: bs)

theorem Steady.enter {body : Nat → Reading α} (h : ∀ d, (body d).Steady) (d : Nat) :
    (Reading.enter d body).Steady := by
  cases d with
  | zero => exact steady_failure
  | succ d => exact h d

theorem Steady.fromSettled {r : Reading α} (h : r.Steady) : (fromSettled r).Steady := by
  intro s hs p hp
  obtain ⟨q, hq, rfl⟩ := Option.map_eq_some_iff.1 ((run_withOrigin r .settled s).symm.trans hp)
  rw [h { s with origin := .settled } hs q hq]

theorem steady_comesFrom (o : Origin) : (comesFrom o).Steady := by
  intro s _ p hp
  cases hp
  rfl

theorem steady_follow (t : Tree) : (follow t).Steady := by
  unfold follow
  split
  · intro s hs p hp
    simp only [StateT.run_bind, StateT.run_get, Option.pure_def, Option.bind_eq_bind,
      Option.bind_some] at hp
    split at hp
    · rename_i hjumps
      cases hs.symm.trans hjumps
    · cases hp
  · exact steady_pure _

theorem steady_node (t : Tree) : (node t).Steady := (steady_follow t).bind fun _ => steady_pure _

theorem steady_settle (d : Nat) (t : Tree) : (settle d t).Steady := by
  induction d generalizing t with
  | zero => exact (steady_follow t).bind fun t => steady_ofOption _
  | succ d ih =>
    refine (steady_follow t).bind fun t => ?_
    split
    · exact (Steady.mapM fun t _ => ih t).bind fun _ => steady_pure _
    · refine Steady.bind (Steady.mapM fun p _ => ?_) fun _ => steady_pure _
      exact (ih p.1).bind fun _ => (ih p.2).bind fun _ => steady_pure _
    · exact steady_ofOption _

/-! ## What readings come to -/

/-- What the reading comes to where no alias may be followed; trees come from the given origin. -/
def value? (r : Reading α) (o : Origin) : Option α := (r.run { origin := o }).map Prod.fst

theorem Yields.value? {r : Reading α} {a : α} (h : r.Yields a) (o : Origin) :
    r.value? o = some a := by
  rw [Reading.value?, h]
  rfl

theorem Fails.value? {r : Reading α} (h : r.Fails) (o : Origin) : r.value? o = none := by
  rw [Reading.value?, h]
  rfl

theorem Steady.value?_bind {r : Reading α} (h : r.Steady) (f : α → Reading β) (o : Origin) :
    (r >>= f).value? o = (r.value? o).bind fun a => (f a).value? o := by
  unfold value?
  rw [StateT.run_bind]
  cases hr : r.run { origin := o } with
  | none => rfl
  | some p =>
    obtain ⟨a, s⟩ := p
    have hsame : s = { origin := o } := h _ rfl _ hr
    subst hsame
    rfl

theorem value?_map (r : Reading α) (f : α → β) (o : Origin) :
    (do return f (← r) : Reading β).value? o = (r.value? o).map f := by
  unfold value?
  rw [StateT.run_bind]
  cases r.run { origin := o } <;> rfl

theorem Steady.value?_mapM {f : α → Reading β} {as : List α} (h : ∀ a ∈ as, (f a).Steady)
    (o : Origin) : (as.mapM f).value? o = as.mapM fun a => (f a).value? o := by
  induction as with
  | nil => rfl
  | cons a as ih =>
    rw [List.forall_mem_cons] at h
    rw [List.mapM_cons, List.mapM_cons, h.1.value?_bind]
    refine Option.bind_congr fun b _ => ?_
    rw [value?_map, ih h.2]
    cases (as.mapM fun a => (f a).value? o) <;> rfl

theorem value?_fromKept (r : Reading α) (o : Origin) :
    (Reading.fromKept r).value? o = r.value? .kept := by
  unfold value? Reading.fromKept
  rw [run_withOrigin]
  cases r.run { origin := .kept } <;> rfl

/-- The second attempt starts where the first one started. -/
theorem value?_orElse (r r' : Reading α) (o : Origin) :
    (r <|> r').value? o = (r.value? o <|> r'.value? o) := by
  change ((r.run { origin := o } <|> r'.run { origin := o }) : Option _).map Prod.fst = _
  unfold value?
  cases r.run { origin := o } <;> rfl

end Reading

/-! ## Readers -/

open Reading

namespace Reader

/-- All readings of the reader are steady. -/
def Steady (r : Reader α) : Prop := ∀ d t, (r d t).Steady

theorem steady_text : text.Steady := by
  intro d t
  refine (steady_node t).bind fun t => ?_
  split <;> first | exact steady_pure _ | exact steady_failure

theorem steady_bool : bool.Steady := by
  intro d t
  refine (steady_node t).bind fun t => ?_
  split
  · exact steady_pure _
  · exact steady_ofOption _
  · exact steady_failure

theorem steady_int64 : int64.Steady := by
  intro d t
  refine (steady_node t).bind fun t => ?_
  split
  · exact steady_ofOption _
  · exact steady_ofOption _
  · exact steady_failure

theorem Steady.map {r : Reader α} (h : r.Steady) (f : α → β) :
    Steady fun d t => return f (← r d t) :=
  fun d t => (h d t).bind fun _ => steady_pure _

theorem Steady.optional {r : Reader α} (h : r.Steady) : (Reader.optional r).Steady := by
  intro d t
  have hsome (t : Tree) : (do return some (← r d t) : Reading (Option α)).Steady :=
    (h d t).bind fun _ => steady_pure _
  refine (steady_follow t).bind fun t => ?_
  split
  · exact steady_pure _
  · exact .ite (.ite (steady_pure _) steady_failure) (.ite (steady_pure _) (hsome _))
  · exact hsome _

theorem Steady.list {r : Reader α} (h : r.Steady) : (Reader.list r).Steady := by
  intro d t
  refine (steady_node t).bind fun t => ?_
  split
  · exact Steady.enter (fun d => Steady.mapM fun t _ => h d t) d
  · exact .ite (steady_pure _) steady_failure
  · exact steady_failure

theorem Steady.dict [DecidableEq α] {key : Reader α} {value : Reader β} (hkey : key.Steady)
    (hvalue : value.Steady) : (Reader.dict key value).Steady := by
  intro d t
  refine (steady_node t).bind fun t => ?_
  split
  · refine Steady.enter (fun d => Steady.bind (Steady.mapM fun p _ => ?_) fun _ => steady_pure _) d
    exact (hkey d p.1).bind fun _ => (hvalue d p.2).bind fun _ => steady_pure _
  · exact .ite (steady_pure _) steady_failure
  · exact steady_failure

/-- Going on after a value that must be nothing. -/
theorem Steady.ifNothing {k : Unit → Reading α} (value : Tree) (h : ∀ u, (k u).Steady) :
    (match value with
      | .null => k ()
      | .map [] => do if ← comesFrom .settled then k () else k (← failure)
      | _ => do k (← failure) : Reading α).Steady := by
  have hfailure : (failure >>= k).Steady := steady_failure.bind h
  split
  · exact h ()
  · exact (steady_comesFrom _).bind fun _ => .ite (h ()) hfailure
  · exact hfailure

theorem steady_choice (values : List α) (name : α → String) : (choice values name).Steady := by
  intro d t
  refine (steady_follow t).bind fun t => ?_
  split
  · exact steady_ofOption _
  · exact steady_ofOption _
  · exact .ite (steady_ofOption _) steady_failure
  · refine Steady.enter (fun d => ?_) d
    split
    · exact Steady.ifNothing _ fun _ => steady_ofOption _
    · exact Steady.ifNothing _ fun _ => .ite (steady_ofOption _) steady_failure
    · exact Steady.ifNothing _ fun _ => steady_failure
  · exact steady_failure

theorem Steady.untagged {r : Reader α} (h : r.Steady) : (Reader.untagged r).Steady := by
  intro d t
  refine (steady_follow t).bind fun t => ?_
  split
  · exact steady_failure
  · exact h d _

end Reader

/-! ## Members -/

theorem Reading.steady_memberName (keys : List String) (key : Tree) :
    (memberName keys key).Steady := by
  refine (steady_node key).bind fun t => ?_
  split
  · exact steady_pure _
  · exact steady_pure _
  · exact .ite (steady_pure _) steady_failure
  · exact steady_failure

theorem Reading.steady_members (keys : List String) (entries : List (Tree × Tree)) :
    (members keys entries).Steady := by
  induction entries with
  | nil => exact steady_pure _
  | cons p entries ih =>
    refine (steady_memberName keys p.1).bind fun name => ih.bind fun ⟨known, others⟩ => ?_
    cases name with
    | none => exact steady_pure _
    | some name => exact .ite (.ite steady_failure (steady_pure _)) (steady_pure _)

namespace Fields

/-- However the members are given, they are read steadily. -/
structure Steady (f : Fields α) : Prop where
  read : ∀ d ms, (f.read d ms).Steady
  readItems : ∀ d items, (f.readItems d items).Steady

theorem steady_done : done.Steady where
  read _ _ := steady_pure _
  readItems _ _ := steady_pure _

theorem Steady.member {key : String} {c : Codec α} {absent : Option α} {rest : Fields β}
    (hc : c.read.Steady) (hrest : rest.Steady) : (Fields.member key c absent rest).Steady where
  read d ms := by
    have hboth (a : α) : (do return (a, ← rest.read d ms) : Reading (α × β)).Steady :=
      (hrest.read d ms).bind fun _ => steady_pure _
    unfold Fields.member
    dsimp only
    split
    · exact (hc d _).bind hboth
    · exact (steady_ofOption absent).bind hboth
  readItems d items := by
    cases items with
    | nil =>
      exact (steady_ofOption absent).bind fun _ =>
        (hrest.readItems d []).bind fun _ => steady_pure _
    | cons t items =>
      exact (hc d t).bind fun _ => (hrest.readItems d items).bind fun _ => steady_pure _

theorem Steady.iso {f : Fields α} (h : f.Steady) (make : α → β) (back : β → α) :
    (f.iso make back).Steady where
  read d ms := (h.read d ms).bind fun _ => steady_pure _
  readItems d items := (h.readItems d items).bind fun _ => steady_pure _

theorem Steady.readAll {f : Fields α} (h : f.Steady) (d : Nat) (items : List Tree) :
    (f.readAll d items).Steady :=
  (h.readItems d items).bind fun _ => .ite (steady_pure _) steady_failure

theorem Steady.record {f : Fields α} (h : f.Steady) : (Codec.record f).read.Steady := by
  intro d t
  refine (steady_node t).bind fun t => ?_
  split
  · exact Steady.enter (fun d => (steady_members _ _).bind fun ms => h.read d ms.1) d
  · exact Steady.enter (fun d => h.readAll d _) d
  · exact .ite (h.read d []) steady_failure
  · exact steady_failure

end Fields

/-! ## Alternatives -/

theorem Reading.steady_alternative (alternatives : List (String × α)) (tag : Tree) :
    (alternative alternatives tag).Steady := by
  refine (steady_node tag).bind fun t => ?_
  split
  · exact steady_ofOption _
  · exact steady_ofOption _
  · refine (steady_comesFrom _).bind fun _ => ?_
    exact .ite steady_failure (.ite (steady_ofOption _) steady_failure)
  · exact steady_failure

theorem Reading.steady_splitTag (key : String) (d : Nat) (entries : List (Tree × Tree)) :
    (splitTag key d entries).Steady := by
  induction entries with
  | nil => exact steady_pure _
  | cons p entries ih =>
    refine (steady_settle d p.1).bind fun k => .ite ?_ ?_
    · refine ih.bind fun q => ?_
      split
      · exact steady_pure _
      · exact steady_failure
    · exact (steady_settle d p.2).bind fun _ => ih.bind fun _ => steady_pure _

/-- However the members of the alternative are given, they are read steadily. -/
structure Variant.Steady (v : Variant α) : Prop where
  read : ∀ d ms, (v.read d ms).Steady
  readAll : ∀ d items, (v.readAll d items).Steady

theorem Fields.Steady.variant {f : Fields α} (h : f.Steady) (make : α → β) :
    (f.variant make).Steady where
  read d ms := (h.read d ms).bind fun _ => steady_pure _
  readAll d items := (h.readAll d items).bind fun _ => steady_pure _

/-! ## One of several

What is read after a choice depends on what has been chosen, so it has to be known that this is one
of those offered.
-/

namespace Reading

variable {P : α → Prop}

theorem gives_failure : Gives (failure : Reading α) P := nofun

theorem Gives.of_value? {r : Reading α} (h : r.Gives P) {o : Origin} {a : α}
    (ha : r.value? o = some a) : P a := by
  obtain ⟨p, hp, rfl⟩ := Option.map_eq_some_iff.1 ha
  exact h _ p hp

/-- A reading that ends with nothing does not succeed. -/
theorem Gives.fails {r : Reading α} (h : r.Gives fun _ => False) : r.Fails := by
  intro s
  cases hr : r.run s with
  | none => rfl
  | some p => exact (h s p hr).elim

theorem gives_pure {a : α} (h : P a) : Gives (pure a) P := by
  intro s p hp
  cases hp
  exact h

theorem gives_ofOption {o : Option α} (h : ∀ a, o = some a → P a) : (ofOption o).Gives P := by
  cases o with
  | none => exact gives_failure
  | some a => exact gives_pure (h a rfl)

theorem Gives.bind {Q : β → Prop} {r : Reading β} {f : β → Reading α} (h : r.Gives Q)
    (h' : ∀ b, Q b → (f b).Gives P) : (r >>= f).Gives P := by
  intro s p hp
  rw [StateT.run_bind] at hp
  obtain ⟨⟨b, s'⟩, hb, hrest⟩ := Option.bind_eq_some_iff.1 hp
  exact h' b (h s _ hb) s' p hrest

theorem Gives.of_bind {r : Reading β} {f : β → Reading α} (h : ∀ b, (f b).Gives P) :
    (r >>= f).Gives P :=
  Gives.bind (Q := fun _ => True) (fun _ _ _ => trivial) fun b _ => h b

theorem Gives.ite {c : Prop} [Decidable c] {r r' : Reading α} (h : r.Gives P) (h' : r'.Gives P) :
    (if c then r else r').Gives P := by
  split
  · exact h
  · exact h'

theorem Gives.mapM {f : β → Reading α} {bs : List β} (h : ∀ b ∈ bs, (f b).Gives P) :
    (bs.mapM f).Gives fun as => ∀ a ∈ as, P a := by
  induction bs with
  | nil => exact gives_pure (List.forall_mem_nil P)
  | cons b bs ih =>
    rw [List.forall_mem_cons] at h
    rw [List.mapM_cons]
    refine h.1.bind fun a ha => (ih h.2).bind fun as has => gives_pure ?_
    exact List.forall_mem_cons.2 ⟨ha, has⟩

theorem Gives.enter {body : Nat → Reading α} (h : ∀ d, (body d).Gives P) (d : Nat) :
    (Reading.enter d body).Gives P := by
  cases d with
  | zero => exact gives_failure
  | succ d => exact h d

theorem Gives.ifNothing {k : Unit → Reading α} (value : Tree) (h : ∀ u, (k u).Gives P) :
    (match value with
      | .null => k ()
      | .map [] => do if ← comesFrom .settled then k () else k (← failure)
      | _ => do k (← failure) : Reading α).Gives P := by
  split
  · exact h ()
  · exact .of_bind fun _ => .ite (h ()) (.of_bind h)
  · exact .of_bind h

/-- A tag names one of the alternatives. -/
theorem alternative_gives (alternatives : List (String × α)) (tag : Tree) :
    (alternative alternatives tag).Gives fun a => ∃ p ∈ alternatives, p.2 = a := by
  have hlookup (key : String) : (ofOption (alternatives.lookup key)).Gives
      fun a => ∃ p ∈ alternatives, p.2 = a := by
    refine gives_ofOption fun a ha => ?_
    obtain ⟨l, r, hl, -⟩ := List.lookup_eq_some_iff.1 ha
    exact ⟨(key, a), by simp [hl], rfl⟩
  refine Gives.of_bind fun t => ?_
  split
  · exact hlookup _
  · exact hlookup _
  · refine Gives.of_bind fun _ => .ite gives_failure
      (.ite (gives_ofOption fun a ha => ?_) gives_failure)
    obtain ⟨p, hp, rfl⟩ := Option.map_eq_some_iff.1 ha
    exact ⟨p, List.mem_of_getElem? hp, rfl⟩
  · exact gives_failure

end Reading

/-- A name stands for one of the values. -/
theorem Reader.choice_gives (values : List α) (name : α → String) (d : Nat) (t : Tree) :
    (Reader.choice values name d t).Gives (· ∈ values) := by
  have hname (s : String) :
      (ofOption (values.find? fun a => name a == s)).Gives (· ∈ values) :=
    gives_ofOption fun a ha => List.mem_of_find?_eq_some ha
  have hplace {i : Nat} : (ofOption values[i]?).Gives (· ∈ values) :=
    gives_ofOption fun a ha => List.mem_of_getElem? ha
  refine Gives.of_bind fun t => ?_
  split
  · exact hname _
  · exact hname _
  · exact .ite (hname _) gives_failure
  · refine Gives.enter (fun d => ?_) d
    split
    · exact Gives.ifNothing _ fun _ => hname _
    · exact Gives.ifNothing _ fun _ => .ite hplace gives_failure
    · exact Gives.ifNothing _ fun _ => gives_failure
  · exact gives_failure

namespace Reader

theorem Steady.taggedInside {key : String} {variants : List (String × Variant α)}
    (h : ∀ p ∈ variants, p.2.Steady) : (Reader.taggedInside key variants).Steady := by
  intro d t
  refine (steady_follow t).bind fun t => ?_
  split
  · refine Steady.enter (fun d => (steady_splitTag key d _).bind fun ⟨tag, others⟩ => ?_) d
    refine (steady_ofOption tag).bind fun tag => ?_
    refine (steady_alternative variants tag).bind_of (alternative_gives variants tag) ?_
    rintro v ⟨p, hp, rfl⟩
    exact ((steady_members _ _).bind fun ms => (h p hp).read d ms.1).fromSettled
  · refine Steady.enter (fun d => ?_) d
    refine (steady_alternative variants _).bind_of (alternative_gives variants _) ?_
    rintro v ⟨p, hp, rfl⟩
    refine (Steady.mapM fun t _ => steady_settle d t).bind fun items => ?_
    exact ((h p hp).readAll d items).fromSettled
  · exact steady_failure

theorem Steady.taggedBeside {tagKey contentKey : String} {contents : List (String × Reader α)}
    (h : ∀ p ∈ contents, p.2.Steady) : (Reader.taggedBeside tagKey contentKey contents).Steady := by
  -- The content is read by one of the readers, which is known once its tag has been read.
  have htag (d : Nat) (t : Tree) :
      (do return (← Reader.choice contents Prod.fst d t).2 : Reading (Reader α)).Steady ∧
      (do return (← Reader.choice contents Prod.fst d t).2 : Reading (Reader α)).Gives
        Reader.Steady :=
    ⟨(steady_choice contents Prod.fst d t).bind fun _ => steady_pure _,
      (choice_gives contents Prod.fst d t).bind fun p hp => gives_pure (h p hp)⟩
  intro d t
  refine (steady_node t).bind fun t => ?_
  split
  · refine Steady.enter (fun d => (steady_members _ _).bind fun ms => ?_) d
    split
    · refine .ite ?_ ?_
      · exact (htag d _).1.bind_of (htag d _).2 fun r hr => hr d _
      · refine (steady_settle d _).bind fun content => ?_
        exact (htag d _).1.bind_of (htag d _).2 fun r hr => (hr d content).fromSettled
    · exact steady_failure
  · refine Steady.enter (fun d => ?_) d
    exact (htag d _).1.bind_of (htag d _).2 fun r hr => hr d _
  · exact steady_failure

end Reader

/-! ## Annotations and indexes -/

theorem Codec.steady_text : Codec.text.read.Steady := Reader.steady_text

theorem Codec.steady_texts : Codec.text.list.read.Steady := Reader.steady_text.list

theorem Kind.steady : Kind.codec.read.Steady := Reader.steady_choice Kind.all Kind.name

theorem Site.steady : Site.codec.read.Steady := by
  have htext : Codec.text.read.Steady := Codec.steady_text
  refine Reader.Steady.taggedInside ?_
  simp only [Site.variants, List.forall_mem_cons]
  refine ⟨?_, ?_, ?_, List.forall_mem_nil _⟩
  · exact (Fields.Steady.member htext Fields.steady_done).variant _
  · exact (Fields.Steady.member htext (.member htext Fields.steady_done)).variant _
  · exact (Fields.Steady.member htext (.member htext Fields.steady_done)).variant _

namespace Value

theorem steady_constantMembers {key : String} {c : Codec α} (h : c.read.Steady) :
    (constantMembers key c).Steady :=
  (Fields.Steady.member Codec.steady_text (.member h Fields.steady_done)).record.untagged

/-- Values are read steadily when the annotations nested in them are. -/
theorem steady_readWith {inner : Reader Annotation} (h : inner.Steady) :
    (readWith inner).Steady := by
  refine Reader.Steady.taggedBeside ?_
  simp only [readers, List.forall_mem_cons]
  refine ⟨?_, ?_, ?_, ?_, ?_, ?_, ?_, ?_, ?_, ?_, List.forall_mem_nil _⟩
  · exact Reader.steady_text.map _
  · exact Reader.steady_int64.map _
  · exact Reader.steady_bool.map _
  · exact (steady_constantMembers Codec.steady_text).map _
  · exact Reader.steady_text.map _
  · exact Reader.steady_text.list.map _
  · exact (steady_constantMembers Codec.steady_texts).map _
  · exact Reader.steady_text.list.map _
  · exact h.map _
  · exact h.list.map _

end Value

namespace Annotation

theorem steady_readWith {inner : Reader Annotation} (h : inner.Steady) :
    (readWith inner).Steady := by
  have hfields : (fieldsCodec inner).read.Steady :=
    (Reader.steady_text.dict (Value.steady_readWith h)).map _
  exact (Fields.Steady.member Kind.steady
    (.member Site.steady.optional (.member hfields Fields.steady_done))).record.map _

theorem steady_readNested (n : Nat) : (readNested n).Steady := by
  induction n with
  | zero => exact fun _ _ => steady_failure
  | succ n ih => exact steady_readWith ih

theorem steady : codec.read.Steady := fun d => steady_readNested (d + 1) d

end Annotation

theorem ClassEntry.steady : ClassEntry.codec.read.Steady := by
  have hannotations :
      (Codec.dict Kind.name Kind.codec.read (.list Annotation.codec)).read.Steady :=
    Kind.steady.dict Annotation.steady.list
  have hflag : Codec.bool.read.Steady := Reader.steady_bool
  exact ((Fields.Steady.member hflag (.member hannotations Fields.steady_done)).iso _ _).record

theorem ClassEntry.steady_dictCodec : ClassEntry.dictCodec.read.Steady :=
  Reader.steady_text.dict ClassEntry.steady

end MappingMetadata
