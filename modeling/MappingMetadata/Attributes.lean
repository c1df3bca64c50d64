import MappingMetadata.Annotation

/-!
# Attribute lists

The fields of an annotation are made from entries, each a name with something that may or may
not be stated. What is absent or empty is not stated and leaves no trace; a name stated again
keeps its first place and takes the last value.
-/

namespace MappingMetadata

/-- What may be stated of an attribute. -/
inductive Entry where
  | string (s : Option String)
  | bool (b : Option Bool)
  | int (n : Option Int64)
  | constant (typeName : String) (tag : Option String)
  | classRef (name : Option String)
  | strings (items : List String)
  | constants (typeName : String) (tags : List String)
  | classRefs (names : List String)
  | nested (a : Option Annotation)
  | array (items : List Annotation)
  /-- A value taken over as it is. -/
  | carried (v : Option Value)
  deriving Repr

namespace Entry

/-- The value that is stated; nothing for what is absent or empty. -/
def value? : Entry → Option Value
  | string s => (s.filter fun s => !s.isEmpty).map .string
  | bool b => b.map .bool
  | int n => n.map .int
  | constant typeName tag => tag.map (.constant typeName)
  | classRef name => (name.filter fun c => !c.isEmpty).map .classRef
  | strings items => if items.isEmpty then none else some (.strings items)
  | constants typeName tags => if tags.isEmpty then none else some (.constants typeName tags)
  | classRefs names => if names.isEmpty then none else some (.classRefs names)
  | nested a => a.map .nested
  | array items => if items.isEmpty then none else some (.array items)
  | carried v => v

end Entry

/-- Named values in the order in which the names were first stated. -/
abbrev Attributes := List (String × Value)

namespace Attributes

/-- Add an entry. -/
def add (fields : Attributes) (name : String) (e : Entry) : Attributes :=
  match e.value? with
  | some v => Assoc.put fields name v
  | none => fields

theorem get?_add (fields : Attributes) (name : String) (e : Entry) (name' : String) :
    Assoc.get? (add fields name e) name' =
      if name = name' then e.value?.or (Assoc.get? fields name') else Assoc.get? fields name' := by
  cases h : e.value? <;> simp [add, h, Assoc.get?_put]

/-- The attributes that a list of entries states. -/
def ofEntries (entries : List (String × Entry)) : Attributes :=
  entries.foldl (fun fields p => add fields p.1 p.2) []

/-- Among entries with different names, a name has the value that its entry states. -/
theorem get?_ofEntries {entries : List (String × Entry)} (h : (Assoc.keys entries).Nodup)
    (name : String) :
    Assoc.get? (ofEntries entries) name = (Assoc.get? entries name).bind Entry.value? := by
  suffices hfold : ∀ fields : Attributes,
      Assoc.get? (entries.foldl (fun fields p => add fields p.1 p.2) fields) name =
        ((Assoc.get? entries name).bind Entry.value?).or (Assoc.get? fields name) by
    simpa [ofEntries, Assoc.get?] using hfold []
  induction entries with
  | nil => simp [Assoc.get?]
  | cons p entries ih =>
    intro fields
    have hcons : Assoc.keys (p :: entries) = p.1 :: Assoc.keys entries := rfl
    rw [hcons, List.nodup_cons] at h
    rw [List.foldl_cons, ih h.2, get?_add]
    by_cases hp : p.1 = name
    · have hnone : Assoc.get? entries name = none := by
        rw [← Option.not_isSome_iff_eq_none, Assoc.get?_isSome_iff, ← hp]
        exact h.1
      simp [Assoc.get?, hp, hnone]
    · simp [Assoc.get?, hp]

end Attributes

namespace Annotation

/-- The annotation whose fields a list of entries states. -/
def ofEntries (kind : Kind) (site : Option Site) (entries : List (String × Entry)) : Annotation :=
  ⟨kind, site, Attributes.ofEntries entries⟩

theorem field?_ofEntries {kind : Kind} {site : Option Site} {entries : List (String × Entry)}
    (h : (Assoc.keys entries).Nodup) (name : String) :
    (ofEntries kind site entries).field? name = (Assoc.get? entries name).bind Entry.value? :=
  Attributes.get?_ofEntries h name

/-- None for no item, the item itself for one, a wrapper of detached items for several. -/
def ofItems {α : Type} (plural : Kind) (one : α → Option Site → Annotation)
    (site : Option Site) : List α → Option Annotation
  | [] => none
  | [item] => some (one item site)
  | items => some (wrapper plural site (items.map fun item => one item none))

end Annotation

end MappingMetadata
